import Mathlib.Data.List.Sort
import RegLang.Proofs.Automaton.BreadthFirst

/-!
This module contains what the events of the subset construction tell: every state of the automaton
that is built, in the order of the least words that lead to the states, each with its transitions.
-/

namespace RegLang

namespace Automaton

variable {σ : Type} [Ordered σ] {A : Automaton σ} {keepSink : Bool} {s : FinSet σ} {p q : σ}
  {a : Char} {w : List Char}

def outgoing (A : Automaton σ) (state : σ) : List (Char × σ) :=
  ((A.transitions.get? state).getD .empty).entries.flatMap fun cell =>
    cell.2.toList.map fun target => (cell.1, target)

def IsLeastWord (A : Automaton σ) (state : σ) (word : List Char) : Prop :=
  A.Path A.initial word state ∧
    ∀ v, A.Path A.initial v state → word = v ∨ List.Shortlex Ordered.Lt word v

theorem mem_outgoing : (a, q) ∈ A.outgoing p ↔ A.Edge p a q := by
  unfold outgoing Edge Transitions.Holds
  simp only [List.mem_flatMap, List.mem_map, Prod.exists, FinMap.mem_entries, FinSet.mem_toList,
    get?_getD_eq_successors?, Prod.mk.injEq]
  constructor
  · rintro ⟨b, targets, hs, r, hr, hb, hq⟩
    subst hb hq
    exact ⟨targets, hs, hr⟩
  · rintro ⟨targets, hs, hq⟩
    exact ⟨a, targets, hs, q, hq, rfl, rfl⟩

theorem pairwise_outgoing : (A.outgoing p).Pairwise (Prod.Lex Ordered.Lt Ordered.Lt) := by
  unfold outgoing
  rw [List.pairwise_flatMap]
  constructor
  · intro cell _
    rw [List.pairwise_map]
    apply cell.2.increasing.imp
    intro r t h
    exact .right cell.1 h
  · apply (FinMap.increasing _).imp
    intro cell other h m hm n hn
    rcases List.mem_map.mp hm with ⟨_, _, hm⟩
    rcases List.mem_map.mp hn with ⟨_, _, hn⟩
    rw [← hm, ← hn]
    exact .left _ _ h

theorem outgoing_determinize (hA : A.IsValid) (hs : A.Discovers keepSink s) :
    (A.determinize keepSink).outgoing s = (A.visit keepSink s).moves := by
  apply List.Pairwise.eq_of_mem_iff pairwise_outgoing
  · apply pairwise_moves_visit.imp
    intro m n h
    exact .left _ _ h
  · rintro ⟨a, t⟩
    rw [mem_outgoing, edge_determinize hA, and_iff_right hs]

theorem isLeastWord_determinize (hA : A.IsValid) (hw : A.Admits keepSink w)
    (h : ∀ v, A.Admits keepSink v → A.reached v = A.reached w → A.Replaces w v) :
    (A.determinize keepSink).IsLeastWord (A.reached w) w := by
  constructor
  · exact (path_determinize_iff hA).mpr ⟨hw, rfl⟩
  · intro v hv
    rcases (path_determinize_iff hA).mp hv with ⟨hv, e⟩
    exact (h v hv e.symm).2

theorem isFinal_determinize (hA : A.IsValid) (hs : A.Discovers keepSink s) :
    (A.determinize keepSink).isFinal s = s.any A.isFinal := by
  unfold isFinal
  rw [Bool.eq_iff_iff, FinSet.contains_iff, mem_finals_determinize hA, and_iff_right hs]
  simp

/--
The events name each state of the deterministic automaton once, in the increasing order of the least
words that lead to the states, and whether it is final. Each state is followed by its transitions in
the order of their symbols.
-/
theorem exists_subsetEvents_eq [ToString σ] (hA : A.IsValid) :
    ∃ order words, order.Nodup ∧ (∀ s, s ∈ order ↔ s ∈ A.toDfa.states) ∧
      List.Forall₂ A.toDfa.IsLeastWord order words ∧
      words.Pairwise (List.Shortlex Ordered.Lt) ∧
      (∀ s, s ∈ order → (A.toDfa.outgoing s).Pairwise fun m n => Ordered.Lt m.1 n.1) ∧
      A.subsetEvents = order.flatMap fun s =>
        .subsetDiscovered (toString s) (A.toDfa.isFinal s) ::
          (A.toDfa.outgoing s).map fun m => .subsetTransition (toString s) m.1 (toString m.2) := by
  have inv := invariant_explore A false
  rcases exists_words_explore hA false with ⟨words, hvisits, hwords, hleast⟩
  have hd (s : FinSet σ) (hs : s ∈ (A.explore false).visits.map Visit.state) :
      A.Discovers false s :=
    inv.discovers s (.inl ((inv.mem_processed s).mpr hs))
  refine ⟨(A.explore false).visits.map Visit.state, words, inv.nodup, ?_, ?_, hwords, ?_, ?_⟩
  · intro s
    rw [← inv.mem_processed, toDfa_eq_determinize, mem_states_determinize hA,
      mem_processed_explore hA]
  · rw [hvisits, List.forall₂_map_left_iff, List.forall₂_same]
    intro w hw
    exact isLeastWord_determinize hA (hleast w hw).1 (hleast w hw).2
  · intro s hs
    rw [toDfa_eq_determinize, outgoing_determinize hA (hd s hs)]
    exact pairwise_moves_visit
  · rw [List.flatMap_map]
    apply List.flatMap_congr
    intro v hv
    have hs := hd v.state (List.mem_map_of_mem hv)
    rw [toDfa_eq_determinize, outgoing_determinize hA hs, isFinal_determinize hA hs,
      ← inv.visit_eq v hv]
    rfl

theorem exists_subsetEvents_eq_branching :
    branching.IsValid ∧ ∃ order words, (∀ s, s ∈ order ↔ s ∈ branching.toDfa.states) ∧
      List.Forall₂ branching.toDfa.IsLeastWord order words ∧
      words.Pairwise (List.Shortlex Ordered.Lt) ∧
      branching.subsetEvents = order.flatMap fun s =>
        .subsetDiscovered (toString s) (branching.toDfa.isFinal s) ::
          (branching.toDfa.outgoing s).map fun m =>
            .subsetTransition (toString s) m.1 (toString m.2) := by
  rcases exists_subsetEvents_eq isValid_branching with
    ⟨order, words, _, hstates, hleast, hwords, _, hevents⟩
  exact ⟨isValid_branching, order, words, hstates, hleast, hwords, hevents⟩

end Automaton

end RegLang
