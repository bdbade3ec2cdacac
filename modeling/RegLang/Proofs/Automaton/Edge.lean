import RegLang.Automaton.Validity
import RegLang.Proofs.Transitions.Pruned

/-!
This module contains what the edges of an automaton decide: whether it is valid, which states can
move, which sets of successors it stores and, together with its other parts, which automaton it is.
-/

namespace RegLang

namespace Automaton

variable {σ : Type} [Ordered σ] {A B : Automaton σ} {p q : σ} {a : Char} {targets : FinSet σ}

theorem isValid_of_edges (hp : A.transitions.IsPruned) (hε : ¬ epsilon ∈ A.alphabet)
    (hi : A.initial ∈ A.states) (hf : ∀ q, q ∈ A.finals → q ∈ A.states)
    (he : ∀ p a q, A.Edge p a q → p ∈ A.states ∧ a ∈ A.alphabet ∧ q ∈ A.states) : A.IsValid where
  epsilon_not_mem := hε
  initial_mem := hi
  finals_mem := hf
  source_mem p row hr := by
    rcases hp.exists_holds_of_get? hr with ⟨a, q, e⟩
    exact (he p a q e).1
  symbol_mem p a targets hs := by
    rcases hp.exists_holds hs with ⟨q, e⟩
    exact (he p a q e).2.1
  target_mem p a q e := (he p a q e).2.2
  isPruned := hp

theorem eq_of_edges (hA : A.transitions.IsPruned) (hB : B.transitions.IsPruned)
    (hs : ∀ q, q ∈ A.states ↔ q ∈ B.states) (ha : A.alphabet = B.alphabet)
    (hi : A.initial = B.initial) (hf : ∀ q, q ∈ A.finals ↔ q ∈ B.finals)
    (he : ∀ p a q, A.Edge p a q ↔ B.Edge p a q) : A = B := by
  have hstates : A.states = B.states := FinSet.ext hs
  have htransitions : A.transitions = B.transitions := hA.ext hB he
  have hfinals : A.finals = B.finals := FinSet.ext hf
  cases A
  cases B
  congr

theorem get?_getD_eq_successors? :
    ((A.transitions.get? q).getD .empty).get? a = A.successors? q a := by
  unfold successors? Transitions.successors?
  cases A.transitions.get? q <;> rfl

theorem exists_row_of_edge (e : A.Edge p a q) : ∃ row, A.transitions.get? p = some row := by
  rcases e with ⟨targets, hs, _⟩
  rcases Transitions.successors?_eq_some_iff.mp hs with ⟨row, hr, _⟩
  exact ⟨row, hr⟩

theorem canMove_of_edge (e : A.Edge p a q) : A.canMove p = true :=
  FinMap.contains_iff.mpr (exists_row_of_edge e)

namespace IsValid

variable (hA : A.IsValid)

include hA

theorem mem_of_edge (e : A.Edge p a q) : p ∈ A.states ∧ a ∈ A.alphabet ∧ q ∈ A.states := by
  refine ⟨?_, ?_, hA.target_mem p a q e⟩
  · rcases exists_row_of_edge e with ⟨row, hr⟩
    exact hA.source_mem p row hr
  · rcases e with ⟨targets, hs, _⟩
    exact hA.symbol_mem p a targets hs

theorem canMove_iff : A.canMove p = true ↔ ∃ a q, A.Edge p a q := by
  constructor
  · intro h
    rcases FinMap.contains_iff.mp h with ⟨row, hrow⟩
    exact hA.isPruned.exists_holds_of_get? hrow
  · rintro ⟨a, q, e⟩
    exact canMove_of_edge e

theorem successors?_eq_some_iff :
    A.successors? p a = some targets ↔
      targets ≠ .empty ∧ ∀ q, q ∈ targets ↔ A.Edge p a q :=
  hA.isPruned.successors?_eq_some_iff_holds

theorem successors?_eq_some_iff_of_edge {P : Prop} (h : ∀ t, A.Edge p a t ↔ P ∧ t = q) :
    A.successors? p a = some targets ↔ P ∧ targets = .singleton q := by
  rw [hA.successors?_eq_some_iff]
  simp only [h]
  constructor
  · rintro ⟨hne, ht⟩
    rcases FinSet.ne_empty_iff.mp hne with ⟨t, hmem⟩
    have hP := ((ht t).mp hmem).1
    refine ⟨hP, FinSet.ext ?_⟩
    intro t
    rw [ht, FinSet.mem_singleton]
    exact and_iff_right hP
  · rintro ⟨hP, ht⟩
    rw [ht]
    refine ⟨nofun, ?_⟩
    intro t
    rw [FinSet.mem_singleton]
    exact (and_iff_right hP).symm

theorem exists_successors?_iff :
    (∃ targets, A.successors? p a = some targets) ↔ ∃ q, A.Edge p a q := by
  constructor
  · rintro ⟨targets, hs⟩
    exact hA.isPruned.exists_holds hs
  · rintro ⟨_, targets, hs, _⟩
    exact ⟨targets, hs⟩

end IsValid

end Automaton

end RegLang
