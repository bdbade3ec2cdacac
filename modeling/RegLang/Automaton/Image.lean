import RegLang.Automaton.Path

/-!
This module contains automata that are made from another one by renaming its states, by leaving
some of them out, or by exchanging its final states for the others, and the edges of these
automata.
-/

namespace RegLang

namespace Automaton

variable {σ τ : Type} [Ordered σ] [Ordered τ] {A : Automaton σ} {a : Char}

def map (f : σ → τ) (A : Automaton σ) : Automaton τ where
  states := A.states.map f
  alphabet := A.alphabet
  transitions := .ofTriples (A.transitions.triples.map fun t => (f t.1, t.2.1, f t.2.2))
  initial := f A.initial
  finals := A.finals.map f

def restrict (A : Automaton σ) (p : σ → Bool) : Automaton σ where
  states := A.states.filter p
  alphabet := A.alphabet
  transitions := .ofTriples (A.transitions.triples.filter fun t => p t.1 && p t.2.2)
  initial := A.initial
  finals := A.finals.filter p

def complement (A : Automaton σ) : Automaton σ :=
  { A with finals := A.states.filter fun state => !A.isFinal state }

theorem edge_map {f : σ → τ} {p q : τ} :
    (A.map f).Edge p a q ↔ ∃ s t, A.Edge s a t ∧ f s = p ∧ f t = q := by
  simp only [Edge, map, Transitions.holds_ofTriples, List.mem_map, Prod.exists,
    Transitions.mem_triples, Prod.mk.injEq]
  constructor
  · rintro ⟨s, _, t, h, rfl, rfl, rfl⟩
    exact ⟨s, t, h, rfl, rfl⟩
  · rintro ⟨s, t, h, rfl, rfl⟩
    exact ⟨s, a, t, h, rfl, rfl, rfl⟩

theorem edge_restrict {p : σ → Bool} {s t : σ} :
    (A.restrict p).Edge s a t ↔ A.Edge s a t ∧ p s = true ∧ p t = true := by
  simp [Edge, restrict, Transitions.holds_ofTriples, Transitions.mem_triples]

end Automaton

end RegLang
