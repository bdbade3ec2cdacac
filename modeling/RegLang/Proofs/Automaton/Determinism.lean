import RegLang.Automaton.Determinism
import RegLang.Proofs.Automaton.Image
import RegLang.Proofs.Automaton.Reached

/-!
This module contains what the checks for determinism find out about an automaton, and what they say
of the automata that the subset construction builds.
-/

namespace RegLang

namespace Automaton

variable {σ : Type} [Ordered σ] {A : Automaton σ} {keepSink : Bool} {s t : FinSet σ} {p q r : σ}
  {a : Char}

def HasUniqueSuccessors (A : Automaton σ) : Prop :=
  ∀ p a targets, A.successors? p a = some targets → targets.size ≤ 1

theorem HasUniqueSuccessors.eq_of_edge (hu : A.HasUniqueSuccessors) (hq : A.Edge p a q)
    (hr : A.Edge p a r) : q = r := by
  rcases hq with ⟨targets, hs, hq⟩
  rcases hr with ⟨_, hs', hr⟩
  rw [hs, Option.some.injEq] at hs'
  subst hs'
  exact FinSet.eq_of_size_le_one (hu p a targets hs) hq hr

theorem IsValid.hasUniqueSuccessors_iff (hA : A.IsValid) :
    A.HasUniqueSuccessors ↔ ∀ p a q r, A.Edge p a q → A.Edge p a r → q = r := by
  constructor
  · intro hu p a q r hq hr
    exact hu.eq_of_edge hq hr
  · intro h p a targets hs
    rw [hA.successors?_eq_some_iff] at hs
    cases hl : targets.toList with
    | nil => exact absurd (FinSet.ext_toList hl) hs.1
    | cons q qs =>
      have hq : A.Edge p a q := by
        rw [← hs.2, ← FinSet.mem_toList, hl]
        exact List.mem_cons_self
      have htargets : targets = .singleton q := by
        apply FinSet.ext
        intro r
        rw [hs.2, FinSet.mem_singleton]
        constructor
        · intro hr
          exact h p a r q hr hq
        · intro hr
          rw [hr]
          exact hq
      rw [htargets]
      exact Nat.le_refl 1

theorem isPartialDfa_iff : A.isPartialDfa = true ↔ A.HasUniqueSuccessors := by
  unfold isPartialDfa HasUniqueSuccessors successors?
  simp only [List.all_eq_true, FinMap.mem_values, decide_eq_true_eq,
    Transitions.successors?_eq_some_iff]
  constructor
  · rintro h p a targets ⟨row, hr, hc⟩
    exact h row ⟨p, hr⟩ targets ⟨a, hc⟩
  · rintro h row ⟨p, hr⟩ targets ⟨a, hc⟩
    exact h p a targets ⟨row, hr, hc⟩

theorem branching?_eq_none_iff : A.branching? = none ↔ A.HasUniqueSuccessors := by
  unfold branching? HasUniqueSuccessors successors?
  simp only [List.findSome?_eq_none_iff, Prod.forall, FinMap.mem_entries,
    Transitions.successors?_eq_some_iff, ite_eq_right_iff, reduceCtorEq, imp_false, Nat.not_lt]
  constructor
  · rintro h p a targets ⟨row, hr, hc⟩
    exact h p row hr a targets hc
  · intro h p row hr a targets hc
    exact h p a targets ⟨row, hr, hc⟩

theorem gap?_eq_none_iff :
    A.gap? q = none ↔ A.canMove q = true ∧
      ∀ a, a ∈ A.alphabet → ∃ targets, A.successors? q a = some targets := by
  unfold gap?
  cases A.canMove q <;> simp [Option.isSome_iff_exists, ← Option.isSome_iff_ne_none]

theorem isDeterministic_iff :
    A.isDeterministic = true ↔ A.HasUniqueSuccessors ∧ ∀ q, q ∈ A.states →
      A.canMove q = true ∧ ∀ a, a ∈ A.alphabet → ∃ targets, A.successors? q a = some targets := by
  unfold isDeterministic nondeterminism?
  simp only [Option.isNone_iff_eq_none, Option.or_eq_none_iff, branching?_eq_none_iff,
    List.findSome?_eq_none_iff, FinSet.mem_toList, gap?_eq_none_iff]

theorem IsValid.isDeterministic_iff (hA : A.IsValid) :
    A.isDeterministic = true ↔ A.isPartialDfa = true ∧ A.alphabet ≠ .empty ∧
      ∀ p a, p ∈ A.states → a ∈ A.alphabet → ∃ q, A.Edge p a q := by
  rw [Automaton.isDeterministic_iff, isPartialDfa_iff]
  simp only [hA.canMove_iff, hA.exists_successors?_iff]
  apply and_congr_right
  intro _
  constructor
  · intro h
    refine ⟨?_, fun p a hp => (h p hp).2 a⟩
    -- The initial state moves, and the symbol of its edge is declared.
    rcases (h A.initial hA.initial_mem).1 with ⟨a, q, e⟩
    exact FinSet.ne_empty_iff.mpr ⟨a, (hA.mem_of_edge e).2.1⟩
  · rintro ⟨hne, h⟩ p hp
    rcases FinSet.ne_empty_iff.mp hne with ⟨a, ha⟩
    exact ⟨⟨a, h p a hp ha⟩, fun b hb => h p b hp hb⟩

theorem IsValid.isDeterministic_iff_successors? (hA : A.IsValid) :
    A.isDeterministic = true ↔ A.alphabet ≠ .empty ∧
      ∀ p a, p ∈ A.states → a ∈ A.alphabet → ∃ q, A.successors? p a = some (.singleton q) := by
  rw [hA.isDeterministic_iff, isPartialDfa_iff]
  constructor
  · rintro ⟨hu, hne, htotal⟩
    refine ⟨hne, ?_⟩
    intro p a hp ha
    rcases htotal p a hp ha with ⟨q, e⟩
    refine ⟨q, hA.successors?_eq_some_iff.mpr ⟨nofun, ?_⟩⟩
    intro r
    rw [FinSet.mem_singleton]
    constructor
    · intro h
      rw [h]
      exact e
    · intro h
      exact hu.eq_of_edge h e
  · rintro ⟨hne, hone⟩
    refine ⟨?_, hne, ?_⟩
    · intro p a targets hs
      rcases hA.isPruned.exists_holds hs with ⟨q, e⟩
      rcases hA.mem_of_edge e with ⟨hp, ha, _⟩
      rcases hone p a hp ha with ⟨r, hr⟩
      rw [hs, Option.some.injEq] at hr
      rw [hr]
      exact Nat.le_refl 1
    · intro p a hp ha
      rcases hone p a hp ha with ⟨q, hs⟩
      exact ⟨q, _, hs, FinSet.mem_singleton.mpr rfl⟩

theorem isPartialDfa_determinize (hA : A.IsValid) :
    (A.determinize keepSink).isPartialDfa = true := by
  rw [isPartialDfa_iff]
  intro s a targets hs
  have hvalid : (A.determinize keepSink).IsValid := isValid_determinize hA
  rw [hvalid.successors?_eq_some_iff_of_edge fun t => edge_determinize_iff_eq_step hA] at hs
  rw [hs.2]
  exact Nat.le_refl 1

theorem isDeterministic_determinize_iff (hA : A.IsValid) :
    (A.determinize keepSink).isDeterministic = true ↔ A.alphabet ≠ .empty ∧
      ∀ s a, A.Discovers keepSink s → a ∈ A.alphabet → A.step s a = .empty → keepSink = true := by
  rw [(isValid_determinize hA).isDeterministic_iff, isPartialDfa_determinize hA]
  simp only [mem_states_determinize hA, edge_determinize_iff_eq_step hA, exists_eq_right, true_and]
  apply and_congr_right
  intro _
  constructor
  · intro h s a hs ha
    exact (h s a hs ha).2.2
  · intro h s a hs ha
    exact ⟨hs, ha, h s a hs ha⟩

theorem Discovers.false_or_exists_step_eq_empty (h : A.Discovers true t) :
    A.Discovers false t ∨ ∃ s a, A.Discovers false s ∧ a ∈ A.alphabet ∧ A.step s a = .empty := by
  induction h with
  | initial => exact .inl .initial
  | @move s t a _ hm ih =>
    rcases ih with hs | hs
    · rcases mem_moves_visit.mp hm with ⟨ha, ht, _⟩
      by_cases hte : t = .empty
      · exact .inr ⟨s, a, hs, ha, ht.symm.trans hte⟩
      · exact .inl (.move hs (mem_moves_visit.mpr ⟨ha, ht, fun e => absurd e hte⟩))
    · exact .inr hs

theorem empty_mem_states_toCompleteDfa_iff (hA : A.IsValid) :
    .empty ∈ A.toCompleteDfa.states ↔
      ∃ s a, A.Discovers false s ∧ a ∈ A.alphabet ∧ A.step s a = .empty := by
  rw [toCompleteDfa_eq_determinize, mem_states_determinize hA]
  constructor
  · intro h
    rcases h.false_or_exists_step_eq_empty with h | h
    · exact absurd rfl h.ne_empty
    · exact h
  · rintro ⟨s, a, hs, ha, ht⟩
    exact .move (discovers_false_iff.mp hs).1 (mem_moves_visit.mpr ⟨ha, ht.symm, fun _ => rfl⟩)

theorem toDfa_eq_toCompleteDfa_iff (hA : A.IsValid) :
    A.toDfa = A.toCompleteDfa ↔ ¬ .empty ∈ A.toCompleteDfa.states := by
  have hvalid : A.toCompleteDfa.IsValid := isValid_determinize hA
  constructor
  · intro h he
    rw [← h, toDfa_eq_determinize, mem_states_determinize hA] at he
    exact he.ne_empty rfl
  · intro he
    rw [toDfa_eq_restrict hA]
    apply hvalid.restrict_eq_self
    intro s hs
    rw [Bool.not_eq_true', FinSet.isEmpty_eq_false_iff]
    exact fun e => he (e ▸ hs)

/--
The deterministic automata never have several successors. The one with the sink is complete unless
there are no symbols. The one without it is complete if moreover the sink is not reached, and just
then the two are the same.
-/
theorem isDeterministic_toDfa_and_toCompleteDfa (hA : A.IsValid) :
    A.toDfa.isPartialDfa = true ∧
    (A.toCompleteDfa.isDeterministic = true ↔ A.alphabet ≠ .empty) ∧
    (A.toDfa.isDeterministic = true ↔
      A.alphabet ≠ .empty ∧ ¬ .empty ∈ A.toCompleteDfa.states) ∧
    (A.toDfa = A.toCompleteDfa ↔ ¬ .empty ∈ A.toCompleteDfa.states) := by
  refine ⟨isPartialDfa_determinize hA, ?_, ?_, toDfa_eq_toCompleteDfa_iff hA⟩
  · rw [toCompleteDfa_eq_determinize, isDeterministic_determinize_iff hA]
    exact and_iff_left fun _ _ _ _ _ => rfl
  · rw [toDfa_eq_determinize, isDeterministic_determinize_iff hA,
      empty_mem_states_toCompleteDfa_iff hA]
    simp only [not_exists, not_and, Bool.false_eq_true, imp_false]

theorem isDeterministic_toDfa_and_toCompleteDfa_branching :
    branching.IsValid ∧ branching.alphabet ≠ .empty ∧ .empty ∈ branching.toCompleteDfa.states ∧
      branching.toDfa.isPartialDfa = true ∧ branching.toCompleteDfa.isDeterministic = true ∧
      ¬ branching.toDfa.isDeterministic = true ∧ branching.toDfa ≠ branching.toCompleteDfa := by
  rcases isDeterministic_toDfa_and_toCompleteDfa isValid_branching with
    ⟨hpartial, hcomplete, hdfa, heq⟩
  have halphabet : branching.alphabet ≠ .empty := nofun
  have he : .empty ∈ branching.toCompleteDfa.states := by
    rw [← FinSet.contains_iff]
    decide +kernel
  exact ⟨isValid_branching, halphabet, he, hpartial, hcomplete.mpr halphabet,
    fun h => (hdfa.mp h).2 he, fun h => heq.mp h he⟩

end Automaton

end RegLang
