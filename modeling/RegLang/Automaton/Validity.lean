import RegLang.Automaton.Path

/-!
This module contains the laws that the parts of an automaton keep. The check finds nothing wrong
with an automaton if and only if its parts agree with each other. What passes the check comes out
without empty rows and sets of successors, and passes it again unchanged.
-/

namespace RegLang

namespace Automaton

variable {σ : Type} [Ordered σ] {A B : Automaton σ} {p q : σ} {a : Char}

structure IsConsistent (A : Automaton σ) : Prop where
  epsilon_not_mem : ¬ epsilon ∈ A.alphabet
  initial_mem : A.initial ∈ A.states
  finals_mem : ∀ q, q ∈ A.finals → q ∈ A.states
  source_mem : ∀ p row, A.transitions.get? p = some row → p ∈ A.states
  symbol_mem : ∀ p a targets, A.successors? p a = some targets → a ∈ A.alphabet
  target_mem : ∀ p a q, A.Edge p a q → q ∈ A.states

structure IsValid (A : Automaton σ) : Prop extends IsConsistent A where
  isPruned : A.transitions.IsPruned

section Check

variable [ToString σ]

theorem strangerProblem?_eq_none_iff {states : FinSet σ} :
    A.strangerProblem? states = none ↔ ∀ q, q ∈ states → q ∈ A.states := by
  simp [strangerProblem?]

theorem cellProblem?_eq_none_iff {targets : FinSet σ} :
    A.cellProblem? a targets = none ↔
      a ∈ A.alphabet ∧ ∀ q, q ∈ targets → q ∈ A.states := by
  unfold cellProblem?
  split <;> simp_all [strangerProblem?_eq_none_iff]

theorem rowProblem?_eq_none_iff {row : FinMap Char (FinSet σ)} :
    A.rowProblem? p row = none ↔
      p ∈ A.states ∧ ∀ a targets, row.get? a = some targets →
        a ∈ A.alphabet ∧ ∀ q, q ∈ targets → q ∈ A.states := by
  unfold rowProblem?
  split <;> simp_all [cellProblem?_eq_none_iff]

theorem problem?_eq_none_iff : A.problem? = none ↔ A.IsConsistent := by
  unfold problem?
  split
  · rename_i h
    simp only [reduceCtorEq, false_iff]
    exact fun hA => hA.epsilon_not_mem (FinSet.contains_iff.mp h)
  · split
    · rename_i hε hi
      simp only [Option.or_eq_none_iff, strangerProblem?_eq_none_iff, List.findSome?_eq_none_iff,
        Prod.forall, FinMap.mem_entries, rowProblem?_eq_none_iff]
      constructor
      · rintro ⟨hf, ht⟩
        refine ⟨by simpa using hε, by simpa using hi, hf, fun p row h => (ht p row h).1, ?_, ?_⟩
        · intro p a targets h
          obtain ⟨row, hr, hc⟩ := Transitions.successors?_eq_some_iff.mp h
          exact ((ht p row hr).2 a targets hc).1
        · rintro p a q ⟨targets, h, hq⟩
          obtain ⟨row, hr, hc⟩ := Transitions.successors?_eq_some_iff.mp h
          exact ((ht p row hr).2 a targets hc).2 q hq
      · intro hA
        refine ⟨hA.finals_mem, fun p row hr => ⟨hA.source_mem p row hr, fun a targets hc => ?_⟩⟩
        have h : A.successors? p a = some targets :=
          Transitions.successors?_eq_some_iff.mpr ⟨row, hr, hc⟩
        exact ⟨hA.symbol_mem p a targets h, fun q hq => hA.target_mem p a q ⟨targets, h, hq⟩⟩
    · rename_i h
      simp only [reduceCtorEq, false_iff]
      exact fun hA => h (FinSet.contains_iff.mpr hA.initial_mem)

theorem checked_eq_ok_iff : A.checked = .ok B ↔ A.IsConsistent ∧ B = A.pruned := by
  rw [← problem?_eq_none_iff, checked]
  cases A.problem? <;> simp [eq_comm]

end Check

theorem edge_pruned : A.pruned.Edge p a q ↔ A.Edge p a q := Transitions.holds_pruned

theorem IsConsistent.isValid_pruned (hA : A.IsConsistent) : A.pruned.IsValid where
  epsilon_not_mem := hA.epsilon_not_mem
  initial_mem := hA.initial_mem
  finals_mem := hA.finals_mem
  source_mem p _ h :=
    have ⟨_, row, hr⟩ := Transitions.exists_row_of_pruned h
    hA.source_mem p row hr
  symbol_mem p a targets h := hA.symbol_mem p a targets (Transitions.targets_of_pruned h).2
  target_mem p a q h := hA.target_mem p a q (edge_pruned.mp h)
  isPruned := Transitions.isPruned_pruned _

theorem IsValid.pruned_eq (hA : A.IsValid) : A.pruned = A := by
  rw [pruned, hA.isPruned.pruned_eq]

theorem IsValid.checked_eq [ToString σ] (hA : A.IsValid) : A.checked = .ok A :=
  checked_eq_ok_iff.mpr ⟨hA.toIsConsistent, hA.pruned_eq.symm⟩

theorem isValid_of_checked [ToString σ] (h : A.checked = .ok B) : B.IsValid := by
  obtain ⟨hA, rfl⟩ := checked_eq_ok_iff.mp h
  exact hA.isValid_pruned

end Automaton

end RegLang
