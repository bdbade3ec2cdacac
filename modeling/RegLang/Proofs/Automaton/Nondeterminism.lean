import RegLang.Proofs.Automaton.ReachablePart

/-!
This module contains the reason that the check for determinism reports. It reports none if and only
if the automaton is deterministic. Otherwise it names the least pair of a state and a symbol with
several successors or, where no pair has several, what the least incomplete state lacks.
-/

namespace RegLang

namespace Automaton

variable {σ : Type} [Ordered σ] {A : Automaton σ} {p : σ} {a : Char} {targets : FinSet σ}
  {r : Nondeterminism σ}

def Branches (A : Automaton σ) (state : σ) (symbol : Char) : Prop :=
  ∃ q r, A.Edge state symbol q ∧ A.Edge state symbol r ∧ q ≠ r

def IsStuck (A : Automaton σ) (state : σ) : Prop := ∀ a q, ¬ A.Edge state a q

def Misses (A : Automaton σ) (state : σ) (symbol : Char) : Prop :=
  symbol ∈ A.alphabet ∧ ∀ q, ¬ A.Edge state symbol q

def IsIncomplete (A : Automaton σ) (state : σ) : Prop :=
  state ∈ A.states ∧ (A.IsStuck state ∨ ∃ symbol, A.Misses state symbol)

/--
Whether a reason is the first one why an automaton is not deterministic. The states come before the
symbols in the order of pairs.
-/
inductive IsReason (A : Automaton σ) : Nondeterminism σ → Prop where
  | multipleSuccessors {p : σ} {a : Char} {targets : FinSet σ} : A.Branches p a →
    (∀ q b, A.Branches q b → ¬ Prod.Lex Ordered.Lt Ordered.Lt (q, b) (p, a)) →
    (∀ q, q ∈ targets ↔ A.Edge p a q) → IsReason A (.multipleSuccessors p a targets)
  | noTransitions {p : σ} : (∀ q b, ¬ A.Branches q b) → Ordered.IsLeast A.IsIncomplete p →
    A.IsStuck p → IsReason A (.noTransitions p)
  | missingTransition {p : σ} {a : Char} : (∀ q b, ¬ A.Branches q b) →
    Ordered.IsLeast A.IsIncomplete p → ¬ A.IsStuck p → Ordered.IsLeast (A.Misses p) a →
    IsReason A (.missingTransition p a)

theorem branches_iff :
    A.Branches p a ↔ ∃ targets, A.successors? p a = some targets ∧ 1 < targets.size := by
  simp only [FinSet.one_lt_size_iff]
  constructor
  · rintro ⟨q, r, ⟨targets, hs, hq⟩, ⟨_, hs', hr⟩, hne⟩
    rw [hs, Option.some.injEq] at hs'
    subst hs'
    exact ⟨targets, hs, q, r, hq, hr, hne⟩
  · rintro ⟨targets, hs, q, r, hq, hr, hne⟩
    exact ⟨q, r, ⟨targets, hs, hq⟩, ⟨targets, hs, hr⟩, hne⟩

theorem hasUniqueSuccessors_iff_not_branches :
    A.HasUniqueSuccessors ↔ ∀ p a, ¬ A.Branches p a := by
  unfold HasUniqueSuccessors
  simp only [branches_iff, not_exists, not_and, Nat.not_lt]

theorem isPartialDfa_eq_false_iff : A.isPartialDfa = false ↔ ∃ p a, A.Branches p a := by
  rw [← Bool.not_eq_true, isPartialDfa_iff, hasUniqueSuccessors_iff_not_branches]
  simp only [Classical.not_forall, Classical.not_not]

theorem branches_of_get? {row : FinMap Char (FinSet σ)} (hr : A.transitions.get? p = some row)
    (hc : row.get? a = some targets) (h : 1 < targets.size) : A.Branches p a :=
  branches_iff.mpr ⟨targets, Transitions.successors?_eq_some_iff.mpr ⟨row, hr, hc⟩, h⟩

theorem branching?_eq_some_iff :
    A.branching? = some r ↔ ∃ p a targets, r = .multipleSuccessors p a targets ∧
      A.successors? p a = some targets ∧ 1 < targets.size ∧
        ∀ q b, A.Branches q b → ¬ Prod.Lex Ordered.Lt Ordered.Lt (q, b) (p, a) := by
  unfold branching? successors?
  simp only [FinMap.findSome?_entries_eq_some_iff, List.findSome?_eq_none_iff, Prod.forall,
    FinMap.mem_entries, Option.ite_none_right_eq_some, Option.some.injEq, ite_eq_right_iff,
    reduceCtorEq, imp_false, Transitions.successors?_eq_some_iff]
  constructor
  · rintro ⟨p, row, hr, ⟨a, targets, hc, ⟨hsize, h⟩, hcells⟩, hrows⟩
    refine ⟨p, a, targets, h.symm, ⟨row, hr, hc⟩, hsize, ?_⟩
    intro q b hb hlt
    rcases branches_iff.mp hb with ⟨targets', hs, hsize'⟩
    rcases Transitions.successors?_eq_some_iff.mp hs with ⟨row', hr', hc'⟩
    -- An earlier pair is in an earlier row, or earlier in the same one.
    rcases Prod.lex_def.mp hlt with hlt | ⟨hq, hlt⟩
    · exact hrows q row' hr' hlt b targets' hc' hsize'
    · dsimp only at hq
      rw [hq, hr, Option.some.injEq] at hr'
      subst hr'
      exact hcells b targets' hc' hlt hsize'
  · rintro ⟨p, a, targets, h, ⟨row, hr, hc⟩, hsize, hleast⟩
    refine ⟨p, row, hr, ⟨a, targets, hc, ⟨hsize, h.symm⟩, ?_⟩, ?_⟩
    · intro b targets' hc' hlt hsize'
      exact hleast p b (branches_of_get? hr hc' hsize') (.right p hlt)
    · intro q row' hr' hlt b targets' hc' hsize'
      exact hleast q b (branches_of_get? hr' hc' hsize') (.left b a hlt)

section

variable (hA : A.IsValid)

include hA

theorem canMove_iff_not_isStuck : A.canMove p = true ↔ ¬ A.IsStuck p := by
  unfold IsStuck
  rw [hA.canMove_iff]
  simp only [Classical.not_forall, Classical.not_not]

theorem isNone_successors?_iff : (A.successors? p a).isNone = true ↔ ∀ q, ¬ A.Edge p a q := by
  rw [← not_exists, ← hA.exists_successors?_iff, ← Option.isSome_iff_exists,
    Option.not_isSome_iff_eq_none, Option.isNone_iff_eq_none]

theorem gap?_eq_some_iff :
    A.gap? p = some r ↔ A.IsStuck p ∧ r = .noTransitions p ∨
      ¬ A.IsStuck p ∧ ∃ a, Ordered.IsLeast (A.Misses p) a ∧ r = .missingTransition p a := by
  unfold gap?
  split
  · next hm =>
    rw [canMove_iff_not_isStuck hA] at hm
    simp only [Option.map_eq_some_iff, FinSet.find?_eq_some_iff, isNone_successors?_iff hA, hm,
      eq_comm (a := r), false_and, false_or, not_false_eq_true, true_and]
    rfl
  · next hm =>
    rw [canMove_iff_not_isStuck hA, Classical.not_not] at hm
    simp only [hm, Option.some.injEq, eq_comm (a := r), true_and, not_true_eq_false, false_and,
      or_false]

theorem gap?_ne_none_iff : A.gap? p ≠ none ↔ A.IsStuck p ∨ ∃ a, A.Misses p a := by
  unfold Misses
  rw [ne_eq, gap?_eq_none_iff, canMove_iff_not_isStuck hA, Classical.not_and_iff_not_or_not,
    Classical.not_not]
  simp only [hA.exists_successors?_iff, Classical.not_forall, not_exists, exists_prop]

theorem isLeast_gap?_ne_none_iff :
    Ordered.IsLeast (fun q => q ∈ A.states ∧ A.gap? q ≠ none) p ↔
      Ordered.IsLeast A.IsIncomplete p := by
  simp only [gap?_ne_none_iff hA]
  rfl

theorem successors?_eq_some_and_one_lt_size_iff :
    A.successors? p a = some targets ∧ 1 < targets.size ↔
      A.Branches p a ∧ ∀ q, q ∈ targets ↔ A.Edge p a q := by
  constructor
  · rintro ⟨hs, hsize⟩
    exact ⟨branches_iff.mpr ⟨targets, hs, hsize⟩, (hA.successors?_eq_some_iff.mp hs).2⟩
  · rintro ⟨hb, hq⟩
    rcases branches_iff.mp hb with ⟨stored, hs, hsize⟩
    have htargets : stored = targets := by
      apply FinSet.ext
      intro q
      rw [(hA.successors?_eq_some_iff.mp hs).2, hq]
    subst htargets
    exact ⟨hs, hsize⟩

theorem nondeterminism?_eq_some_iff : A.nondeterminism? = some r ↔ A.IsReason r := by
  unfold nondeterminism?
  rw [Option.or_eq_some_iff, branching?_eq_none_iff, hasUniqueSuccessors_iff_not_branches,
    branching?_eq_some_iff, FinSet.findSome?_toList_eq_some_iff]
  simp only [isLeast_gap?_ne_none_iff hA, gap?_eq_some_iff hA]
  constructor
  · intro h
    rcases h with ⟨p, a, targets, h, hs, hsize, hleast⟩ | ⟨hn, p, hp, h⟩
    · rcases (successors?_eq_some_and_one_lt_size_iff hA).mp ⟨hs, hsize⟩ with ⟨hb, hq⟩
      rw [h]
      exact .multipleSuccessors hb hleast hq
    · rcases h with ⟨hstuck, h⟩ | ⟨hstuck, a, ha, h⟩
      · rw [h]
        exact .noTransitions hn hp hstuck
      · rw [h]
        exact .missingTransition hn hp hstuck ha
  · intro h
    cases h with
    | multipleSuccessors hb hleast hq =>
      rcases (successors?_eq_some_and_one_lt_size_iff hA).mpr ⟨hb, hq⟩ with ⟨hs, hsize⟩
      exact .inl ⟨_, _, _, rfl, hs, hsize, hleast⟩
    | noTransitions hn hp hstuck => exact .inr ⟨hn, _, hp, .inl ⟨hstuck, rfl⟩⟩
    | missingTransition hn hp hstuck ha => exact .inr ⟨hn, _, hp, .inr ⟨hstuck, _, ha, rfl⟩⟩

end

theorem exists_nondeterminism?_eq_multipleSuccessors (h : A.isPartialDfa = false) :
    ∃ p a targets, A.nondeterminism? = some (.multipleSuccessors p a targets) := by
  cases hb : A.branching? with
  | none =>
    rw [branching?_eq_none_iff, ← isPartialDfa_iff, h] at hb
    cases hb
  | some r =>
    rcases branching?_eq_some_iff.mp hb with ⟨p, a, targets, hr, _⟩
    refine ⟨p, a, targets, ?_⟩
    rw [nondeterminism?, hb, hr]
    rfl

/--
No reason is reported if and only if there are symbols and every state has exactly one successor on
each of them. Several successors are reported if and only if some pair of a state and a symbol has
them. In any case the first reason is reported: the least such pair with all its successors, or else
what the least incomplete state lacks.
-/
theorem nondeterminism?_eq_none_iff_and_eq_some_iff (hA : A.IsValid) :
    (A.nondeterminism? = none ↔ A.alphabet ≠ .empty ∧
      ∀ p a, p ∈ A.states → a ∈ A.alphabet → ∃ q, A.successors? p a = some (.singleton q)) ∧
    ((∃ p a targets, A.nondeterminism? = some (.multipleSuccessors p a targets)) ↔
      ∃ p a, A.Branches p a) ∧
    (A.isPartialDfa = false ↔ ∃ p a, A.Branches p a) ∧
    ∀ r, A.nondeterminism? = some r ↔ A.IsReason r := by
  refine ⟨?_, ?_, isPartialDfa_eq_false_iff, ?_⟩
  · rw [← hA.isDeterministic_iff_successors?, isDeterministic, Option.isNone_iff_eq_none]
  · rw [← isPartialDfa_eq_false_iff]
    constructor
    · rintro ⟨p, a, targets, h⟩
      cases (nondeterminism?_eq_some_iff hA).mp h with
      | multipleSuccessors hb => exact isPartialDfa_eq_false_iff.mpr ⟨p, a, hb⟩
    · exact exists_nondeterminism?_eq_multipleSuccessors
  · intro r
    exact nondeterminism?_eq_some_iff hA

theorem nondeterminism?_eq_none_iff_and_eq_some_iff_branching_and_detached :
    branching.IsValid ∧ branching.IsReason (.multipleSuccessors 2 'b' (.ofList [2, 3])) ∧
      detached.IsValid ∧ detached.isPartialDfa = true ∧
        detached.IsReason (.missingTransition 0 'b') := by
  rcases nondeterminism?_eq_none_iff_and_eq_some_iff isValid_branching with ⟨_, _, _, hbranching⟩
  rcases nondeterminism?_eq_none_iff_and_eq_some_iff isValid_detached with ⟨_, _, _, hdetached⟩
  exact ⟨isValid_branching, (hbranching _).mp rfl, isValid_detached, rfl, (hdetached _).mp rfl⟩

end Automaton

end RegLang
