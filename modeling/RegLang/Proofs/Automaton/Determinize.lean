import RegLang.Proofs.Automaton.Edge
import RegLang.Proofs.Automaton.Exploration
import RegLang.Proofs.Automaton.Membership

/-!
This module contains the parts and the language of the deterministic automata over sets of states,
with and without the sink.
-/

namespace RegLang

namespace Automaton

variable {σ : Type} [Ordered σ] {A : Automaton σ} {keepSink : Bool} {s t : FinSet σ} {q : σ}
  {a : Char} {w : List Char}

def determinize (A : Automaton σ) (keepSink : Bool) : Automaton (FinSet σ) :=
  A.ofExploration (A.explore keepSink)

theorem toDfa_eq_determinize : A.toDfa = A.determinize false := rfl

theorem toCompleteDfa_eq_determinize : A.toCompleteDfa = A.determinize true := rfl

@[simp]
theorem initial_determinize : (A.determinize keepSink).initial = .singleton A.initial := rfl

theorem mem_states_determinize (hA : A.IsValid) :
    s ∈ (A.determinize keepSink).states ↔ A.Discovers keepSink s :=
  mem_processed_explore hA

theorem mem_finals_determinize (hA : A.IsValid) :
    s ∈ (A.determinize keepSink).finals ↔
      A.Discovers keepSink s ∧ ∃ q, q ∈ s ∧ q ∈ A.finals := by
  rw [← mem_processed_explore hA]
  simp [determinize, ofExploration, pruned, isFinal]

theorem edge_determinize (hA : A.IsValid) :
    (A.determinize keepSink).Edge s a t ↔
      A.Discovers keepSink s ∧ (a, t) ∈ (A.visit keepSink s).moves := by
  rw [determinize, ofExploration, edge_pruned]
  unfold Edge
  rw [Transitions.holds_ofRows]
  simp only [List.mem_map, mem_visits_explore hA]
  constructor
  · rintro ⟨_, ⟨v, ⟨hv, hvs⟩, hr⟩, hs, _, hc, ha, ht⟩
    subst hr hs
    rcases List.mem_map.mp hc with ⟨m, hm, e⟩
    subst e ha
    rw [List.mem_singleton.mp ht, ← hvs]
    exact ⟨hv, hm⟩
  · rintro ⟨hs, hm⟩
    exact ⟨_, ⟨_, ⟨hs, rfl⟩, rfl⟩, rfl, _, List.mem_map_of_mem hm, rfl, List.mem_singleton_self t⟩

theorem isValid_determinize (hA : A.IsValid) : (A.determinize keepSink).IsValid := by
  apply isValid_of_edges
  case hp => exact Transitions.isPruned_pruned _
  case hε => exact hA.epsilon_not_mem
  case hi => exact (mem_states_determinize hA).mpr .initial
  case hf =>
    intro s hs
    exact (mem_states_determinize hA).mpr ((mem_finals_determinize hA).mp hs).1
  case he =>
    intro s a t e
    rcases (edge_determinize hA).mp e with ⟨hs, hm⟩
    exact ⟨(mem_states_determinize hA).mpr hs, (mem_moves_visit.mp hm).1,
      (mem_states_determinize hA).mpr (.move hs hm)⟩

theorem Discovers.ne_empty (h : A.Discovers false s) : s ≠ .empty := by
  intro e
  cases h with
  | initial => cases e
  | move _ hm => exact Bool.false_ne_true ((mem_moves_visit.mp hm).2.2 e)

theorem mem_alphabet_of_mem_step (hA : A.IsValid) (hq : q ∈ A.step s a) : a ∈ A.alphabet := by
  rcases mem_step.mp hq with ⟨p, _, targets, ht, _⟩
  exact hA.symbol_mem p a targets ht

theorem exists_mem_step_of_statesAfter (h : q ∈ A.statesAfter s (a :: w)) :
    ∃ r, r ∈ A.step s a := by
  rw [statesAfter_cons, mem_statesAfter] at h
  rcases h with ⟨r, hr, _⟩
  exact ⟨r, hr⟩

theorem eq_statesAfter_of_path (hA : A.IsValid) (h : (A.determinize keepSink).Path s w t) :
    t = A.statesAfter s w := by
  induction h with
  | nil => rfl
  | cons e _ ih =>
    rw [ih, (mem_moves_visit.mp ((edge_determinize hA).mp e).2).2.1, statesAfter_cons]

theorem path_statesAfter (hA : A.IsValid) (hs : A.Discovers keepSink s)
    (hq : q ∈ A.statesAfter s w) : (A.determinize keepSink).Path s w (A.statesAfter s w) := by
  induction w generalizing s with
  | nil => exact .nil s
  | cons a w ih =>
    -- No set on the way is empty, so each of them follows also where the sink is left out.
    rcases exists_mem_step_of_statesAfter hq with ⟨r, hr⟩
    have hm : (a, A.step s a) ∈ (A.visit keepSink s).moves := by
      apply mem_moves_visit.mpr
      refine ⟨mem_alphabet_of_mem_step hA hr, rfl, ?_⟩
      intro h
      rw [h] at hr
      exact absurd hr FinSet.not_mem_empty
    exact .cons ((edge_determinize hA).mpr ⟨hs, hm⟩) (ih (.move hs hm) hq)

theorem Discovers.of_path (hA : A.IsValid) (hs : A.Discovers keepSink s)
    (h : (A.determinize keepSink).Path s w t) : A.Discovers keepSink t := by
  induction h with
  | nil => exact hs
  | cons e _ ih => exact ih (.move hs ((edge_determinize hA).mp e).2)

theorem hasAcceptingPath_determinize (hA : A.IsValid) :
    (A.determinize keepSink).HasAcceptingPath w ↔ A.HasAcceptingPath w := by
  constructor
  · rintro ⟨t, h, ht⟩
    rcases (mem_finals_determinize hA).mp ht with ⟨_, q, hq, hf⟩
    rw [eq_statesAfter_of_path hA h] at hq
    exact ⟨q, mem_reached.mp hq, hf⟩
  · rintro ⟨q, h, hf⟩
    have hq := mem_reached.mpr h
    have hp : (A.determinize keepSink).Path _ w _ := path_statesAfter hA .initial hq
    exact ⟨_, hp, (mem_finals_determinize hA).mpr ⟨Discovers.of_path hA .initial hp, q, hq, hf⟩⟩

theorem accepts_determinize (hA : A.IsValid) :
    (A.determinize keepSink).accepts w = A.accepts w := by
  rw [Bool.eq_iff_iff, accepts_iff_hasAcceptingPath, accepts_iff_hasAcceptingPath]
  exact hasAcceptingPath_determinize hA

theorem accepts_toDfa_and_toCompleteDfa (hA : A.IsValid) (w : List Char) :
    A.toDfa.accepts w = A.accepts w ∧ A.toCompleteDfa.accepts w = A.accepts w := by
  rw [toDfa_eq_determinize, toCompleteDfa_eq_determinize]
  exact ⟨accepts_determinize hA, accepts_determinize hA⟩

def branching : Automaton Int where
  states := .ofList [0, 1, 2, 3]
  alphabet := .ofList ['a', 'b']
  transitions := .ofTriples
    [(0, 'a', 1), (1, 'a', 1), (1, 'b', 2), (2, 'b', 2), (2, 'b', 3), (3, 'a', 1)]
  initial := 0
  finals := .singleton 3

theorem isValid_branching : branching.IsValid := by
  apply isValid_of_checked (A := branching)
  rfl

theorem accepts_toDfa_and_toCompleteDfa_branching :
    branching.IsValid ∧
      branching.toDfa.accepts ['a', 'b', 'b', 'a', 'c'] =
        branching.accepts ['a', 'b', 'b', 'a', 'c'] ∧
      branching.toCompleteDfa.accepts ['a', 'b', 'b', 'a', 'c'] =
        branching.accepts ['a', 'b', 'b', 'a', 'c'] :=
  ⟨isValid_branching, accepts_toDfa_and_toCompleteDfa isValid_branching _⟩

end Automaton

end RegLang
