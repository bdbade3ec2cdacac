import RegLang.Automaton.Image
import RegLang.Proofs.Automaton.Determinize

/-!
This module contains which automata the subset construction builds. With the sink, the states are the
sets of states after the words over the alphabet, and each of them is followed by the set of all
successors of its members. Without the sink, only the empty set and what leads there is missing.
-/

namespace RegLang

namespace Automaton

variable {σ : Type} [Ordered σ] {A : Automaton σ} {keepSink : Bool} {s t : FinSet σ}
  {a : Char} {w : List Char}

theorem reached_append_singleton : A.reached (w ++ [a]) = A.step (A.reached w) a := by
  unfold reached statesAfter
  rw [List.foldl_append]
  rfl

theorem step_empty : A.step .empty a = .empty := rfl

theorem eq_reached_iff : s = A.reached w ↔ ∀ q, q ∈ s ↔ A.Path A.initial w q := by
  simp only [FinSet.ext_iff, mem_reached]

theorem eq_step_iff : t = A.step s a ↔ ∀ q, q ∈ t ↔ ∃ p, p ∈ s ∧ A.Edge p a q := by
  simp only [FinSet.ext_iff, mem_step]

theorem Discovers.exists_reached (h : A.Discovers keepSink s) :
    ∃ w, (∀ c, c ∈ w → c ∈ A.alphabet) ∧ s = A.reached w := by
  induction h with
  | initial => exact ⟨[], nofun, rfl⟩
  | @move s t a _ hm ih =>
    rcases ih with ⟨w, hw, hs⟩
    rcases mem_moves_visit.mp hm with ⟨ha, ht, _⟩
    refine ⟨w ++ [a], ?_, ?_⟩
    · intro c hc
      rcases List.mem_append.mp hc with hc | hc
      · exact hw c hc
      · exact List.mem_singleton.mp hc ▸ ha
    · rw [ht, hs, reached_append_singleton]

theorem Discovers.statesAfter (hs : A.Discovers true s) (hw : ∀ c, c ∈ w → c ∈ A.alphabet) :
    A.Discovers true (A.statesAfter s w) := by
  induction w generalizing s with
  | nil => exact hs
  | cons a w ih =>
    rw [statesAfter_cons]
    apply ih
    · exact .move hs (mem_moves_visit.mpr ⟨hw a List.mem_cons_self, rfl, fun _ => rfl⟩)
    · intro c hc
      exact hw c (List.mem_cons_of_mem a hc)

theorem discovers_true_iff :
    A.Discovers true s ↔ ∃ w, (∀ c, c ∈ w → c ∈ A.alphabet) ∧ s = A.reached w := by
  constructor
  · intro h
    exact h.exists_reached
  · rintro ⟨w, hw, hs⟩
    rw [hs]
    exact Discovers.statesAfter .initial hw

theorem discovers_false_iff : A.Discovers false s ↔ A.Discovers true s ∧ s ≠ .empty := by
  constructor
  · intro h
    refine ⟨?_, h.ne_empty⟩
    induction h with
    | initial => exact .initial
    | move _ hm ih =>
      rcases mem_moves_visit.mp hm with ⟨ha, ht, _⟩
      exact .move ih (mem_moves_visit.mpr ⟨ha, ht, fun _ => rfl⟩)
  · rintro ⟨h, hne⟩
    induction h with
    | initial => exact .initial
    | @move s t a _ hm ih =>
      rcases mem_moves_visit.mp hm with ⟨ha, ht, _⟩
      -- Nothing but the empty set follows the empty set.
      have hs : s ≠ .empty := by
        intro e
        rw [e, step_empty] at ht
        exact hne ht
      exact .move (ih hs) (mem_moves_visit.mpr ⟨ha, ht, fun e => absurd e hne⟩)

theorem edge_determinize_iff_eq_step (hA : A.IsValid) :
    (A.determinize keepSink).Edge s a t ↔
      (A.Discovers keepSink s ∧ a ∈ A.alphabet ∧ (A.step s a = .empty → keepSink = true)) ∧
        t = A.step s a := by
  rw [edge_determinize hA, mem_moves_visit]
  constructor
  · rintro ⟨hs, ha, ht, hk⟩
    exact ⟨⟨hs, ha, ht ▸ hk⟩, ht⟩
  · rintro ⟨⟨hs, ha, hk⟩, ht⟩
    exact ⟨hs, ha, ht, ht ▸ hk⟩

theorem edge_toCompleteDfa (hA : A.IsValid) :
    A.toCompleteDfa.Edge s a t ↔
      (s ∈ A.toCompleteDfa.states ∧ a ∈ A.alphabet) ∧ t = A.step s a := by
  rw [toCompleteDfa_eq_determinize, edge_determinize_iff_eq_step hA, mem_states_determinize hA]
  simp

theorem edge_toDfa (hA : A.IsValid) :
    A.toDfa.Edge s a t ↔ A.toCompleteDfa.Edge s a t ∧ s ≠ .empty ∧ t ≠ .empty := by
  rw [edge_toCompleteDfa hA, toDfa_eq_determinize, toCompleteDfa_eq_determinize,
    edge_determinize_iff_eq_step hA, mem_states_determinize hA, discovers_false_iff]
  constructor
  · rintro ⟨⟨⟨hs, hse⟩, ha, hne⟩, ht⟩
    exact ⟨⟨⟨hs, ha⟩, ht⟩, hse, fun e => Bool.false_ne_true (hne (ht ▸ e))⟩
  · rintro ⟨⟨⟨hs, ha⟩, ht⟩, hse, hte⟩
    exact ⟨⟨⟨hs, hse⟩, ha, fun e => absurd (ht.trans e) hte⟩, ht⟩

theorem mem_finals_toCompleteDfa (hA : A.IsValid) :
    s ∈ A.toCompleteDfa.finals ↔ s ∈ A.toCompleteDfa.states ∧ ∃ q, q ∈ s ∧ q ∈ A.finals := by
  rw [toCompleteDfa_eq_determinize, mem_finals_determinize hA, mem_states_determinize hA]

theorem toDfa_eq_restrict (hA : A.IsValid) :
    A.toDfa = A.toCompleteDfa.restrict fun s => !s.isEmpty := by
  have hdfa : A.toDfa.IsValid := isValid_determinize hA
  apply eq_of_edges hdfa.isPruned Transitions.isPruned_ofTriples
  case hs =>
    intro s
    simp only [restrict, FinSet.mem_filter, toDfa_eq_determinize, toCompleteDfa_eq_determinize,
      mem_states_determinize hA, discovers_false_iff]
    simp
  case ha => rfl
  case hi => rfl
  case hf =>
    intro s
    simp only [restrict, FinSet.mem_filter, toDfa_eq_determinize, toCompleteDfa_eq_determinize,
      mem_finals_determinize hA, discovers_false_iff]
    simp [and_right_comm]
  case he =>
    intro s a t
    rw [edge_toDfa hA, edge_restrict]
    simp

/--
The complete deterministic automaton consists of the sets of states that paths with the words over
the alphabet lead to. The one successor of a set on a symbol holds the successors of all its members,
and the final sets are those with a final member. Without the empty set and its transitions this is
the partial deterministic automaton.
-/
theorem mem_states_toCompleteDfa_and_toDfa_eq_restrict (hA : A.IsValid) :
    (∀ s, s ∈ A.toCompleteDfa.states ↔
      ∃ w, (∀ c, c ∈ w → c ∈ A.alphabet) ∧ ∀ q, q ∈ s ↔ A.Path A.initial w q) ∧
    (∀ s a targets, A.toCompleteDfa.successors? s a = some targets ↔
      s ∈ A.toCompleteDfa.states ∧ a ∈ A.alphabet ∧
        ∃ t, targets = .singleton t ∧ ∀ q, q ∈ t ↔ ∃ p, p ∈ s ∧ A.Edge p a q) ∧
    (∀ s, s ∈ A.toCompleteDfa.finals ↔
      s ∈ A.toCompleteDfa.states ∧ ∃ q, q ∈ s ∧ q ∈ A.finals) ∧
    A.toCompleteDfa.initial = .singleton A.initial ∧
    A.toCompleteDfa.alphabet = A.alphabet ∧
    A.toDfa = A.toCompleteDfa.restrict fun s => !s.isEmpty := by
  refine ⟨?_, ?_, ?_, rfl, rfl, toDfa_eq_restrict hA⟩
  · intro s
    rw [toCompleteDfa_eq_determinize, mem_states_determinize hA, discovers_true_iff]
    simp only [eq_reached_iff]
  · intro s a targets
    have hvalid : A.toCompleteDfa.IsValid := isValid_determinize hA
    rw [hvalid.successors?_eq_some_iff_of_edge fun t => edge_toCompleteDfa hA, and_assoc]
    simp only [← eq_step_iff, exists_eq_right]
  · intro s
    exact mem_finals_toCompleteDfa hA

theorem mem_states_toCompleteDfa_and_toDfa_eq_restrict_branching :
    branching.IsValid ∧ .ofList [2, 3] ∈ branching.toCompleteDfa.states ∧
      (∃ w, (∀ c, c ∈ w → c ∈ branching.alphabet) ∧
        ∀ q, q ∈ FinSet.ofList [2, 3] ↔ branching.Path 0 w q) ∧
      branching.toDfa = branching.toCompleteDfa.restrict fun s => !s.isEmpty := by
  rcases mem_states_toCompleteDfa_and_toDfa_eq_restrict isValid_branching with
    ⟨hstates, _, _, _, _, hdfa⟩
  have hs : .ofList [2, 3] ∈ branching.toCompleteDfa.states := by
    rw [← FinSet.contains_iff]
    decide +kernel
  exact ⟨isValid_branching, hs, (hstates _).mp hs, hdfa⟩

end Automaton

end RegLang
