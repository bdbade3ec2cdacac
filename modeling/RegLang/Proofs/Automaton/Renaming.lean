import RegLang.Proofs.Automaton.Determinism
import RegLang.Proofs.FinSet.Size

/-!
This module contains what the names of states do not matter for. If different states get different
names, the renamed automaton has as many states, accepts the same words, passes the same checks for
determinism and is made deterministic in the same way, even if the new names have another order.
-/

namespace RegLang

namespace Automaton

variable {σ τ : Type} [Ordered σ] [Ordered τ] {A : Automaton σ} {f : σ → τ} {keepSink : Bool}
  {s : FinSet σ} {r : FinSet τ} {a : Char}

structure Resembles (A : Automaton σ) (B : Automaton τ) : Prop where
  size_states : B.states.size = A.states.size
  accepts : ∀ w, B.accepts w = A.accepts w
  isPartialDfa : B.isPartialDfa = A.isPartialDfa
  isDeterministic : B.isDeterministic = A.isDeterministic

section

variable (hA : A.IsValid) (hf : A.Distinguishes f)

include hA hf

theorem hasUniqueSuccessors_map_iff :
    (A.map f).HasUniqueSuccessors ↔ A.HasUniqueSuccessors := by
  rw [(hA.map f).hasUniqueSuccessors_iff, hA.hasUniqueSuccessors_iff]
  constructor
  · intro h p a q r hq hr
    have he : f q = f r := by
      apply h (f p) a
      · exact edge_map.mpr ⟨p, q, hq, rfl, rfl⟩
      · exact edge_map.mpr ⟨p, r, hr, rfl, rfl⟩
    exact hf q r (hA.mem_of_edge hq).2.2 (hA.mem_of_edge hr).2.2 he
  · intro h p a q r hq hr
    rcases edge_map.mp hq with ⟨s, t, hst, hs, ht⟩
    rcases edge_map.mp hr with ⟨s', t', hst', hs', ht'⟩
    have he : s' = s := hf s' s (hA.mem_of_edge hst').1 (hA.mem_of_edge hst).1 (hs'.trans hs.symm)
    rw [he] at hst'
    rw [← ht, ← ht', h s a t t' hst hst']

theorem isPartialDfa_map : (A.map f).isPartialDfa = A.isPartialDfa := by
  rw [Bool.eq_iff_iff, isPartialDfa_iff, isPartialDfa_iff]
  exact hasUniqueSuccessors_map_iff hA hf

theorem isDeterministic_map : (A.map f).isDeterministic = A.isDeterministic := by
  rw [Bool.eq_iff_iff, (hA.map f).isDeterministic_iff, hA.isDeterministic_iff,
    isPartialDfa_map hA hf]
  apply and_congr_right
  intro _
  apply and_congr_right
  intro _
  constructor
  · intro h p a hp ha
    rcases h (f p) a (FinSet.mem_map.mpr ⟨p, hp, rfl⟩) ha with ⟨r, hr⟩
    rcases edge_map.mp hr with ⟨s, t, e, hs, _⟩
    rw [hf s p (hA.mem_of_edge e).1 hp hs] at e
    exact ⟨t, e⟩
  · intro h r a hr ha
    rcases FinSet.mem_map.mp hr with ⟨p, hp, e⟩
    rcases h p a hp ha with ⟨q, hq⟩
    exact ⟨f q, edge_map.mpr ⟨p, q, hq, e, rfl⟩⟩

theorem resembles_map : A.Resembles (A.map f) where
  size_states := FinSet.size_map hf
  accepts _ := accepts_map hA hf
  isPartialDfa := isPartialDfa_map hA hf
  isDeterministic := isDeterministic_map hA hf

theorem step_map (hs : ∀ q, q ∈ s → q ∈ A.states) :
    (A.map f).step (s.map f) a = (A.step s a).map f := by
  apply FinSet.ext
  intro r
  simp only [mem_step, FinSet.mem_map]
  constructor
  · rintro ⟨_, ⟨p, hp, hpf⟩, e⟩
    rcases edge_map.mp e with ⟨p', q, e, hp', hq⟩
    rw [hf p' p (hA.mem_of_edge e).1 (hs p hp) (hp'.trans hpf.symm)] at e
    exact ⟨q, ⟨p, hp, e⟩, hq⟩
  · rintro ⟨q, ⟨p, hp, e⟩, hq⟩
    exact ⟨f p, ⟨p, hp, rfl⟩, edge_map.mpr ⟨p, q, e, rfl, hq⟩⟩

theorem mem_moves_visit_map (hs : ∀ q, q ∈ s → q ∈ A.states) :
    (a, r) ∈ ((A.map f).visit keepSink (s.map f)).moves ↔
      ∃ t, (a, t) ∈ (A.visit keepSink s).moves ∧ t.map f = r := by
  rw [mem_moves_visit, step_map hA hf hs]
  simp only [mem_moves_visit]
  constructor
  · rintro ⟨ha, hr, hk⟩
    refine ⟨A.step s a, ⟨ha, rfl, ?_⟩, hr.symm⟩
    intro he
    rw [← FinSet.map_eq_empty_iff (f := f), ← hr] at he
    exact hk he
  · rintro ⟨t, ⟨ha, ht, hk⟩, hr⟩
    subst ht hr
    exact ⟨ha, rfl, fun he => hk (FinSet.map_eq_empty_iff.mp he)⟩

theorem discovers_map_iff :
    (A.map f).Discovers keepSink r ↔ ∃ s, A.Discovers keepSink s ∧ s.map f = r := by
  constructor
  · intro h
    induction h with
    | initial => exact ⟨_, .initial, FinSet.map_singleton⟩
    | move _ hm ih =>
      rcases ih with ⟨s, hs, e⟩
      subst e
      rcases (mem_moves_visit_map hA hf fun _ => hs.mem_states hA).mp hm with ⟨t, ht, e⟩
      exact ⟨t, .move hs ht, e⟩
  · rintro ⟨s, hs, e⟩
    subst e
    induction hs with
    | initial => exact .initial
    | move hs hm ih =>
      exact .move ih ((mem_moves_visit_map hA hf fun _ => hs.mem_states hA).mpr ⟨_, hm, rfl⟩)

theorem distinguishes_determinize_map :
    (A.determinize keepSink).Distinguishes fun s => s.map f := by
  intro s t hs ht
  rw [mem_states_determinize hA] at hs ht
  exact FinSet.eq_of_map_eq hf (fun _ => hs.mem_states hA) fun _ => ht.mem_states hA

theorem determinize_map :
    (A.map f).determinize keepSink = (A.determinize keepSink).map fun s => s.map f := by
  have hB : (A.map f).IsValid := hA.map f
  have hvalid : ((A.map f).determinize keepSink).IsValid := isValid_determinize hB
  apply eq_of_edges hvalid.isPruned Transitions.isPruned_ofTriples
  case hs =>
    intro r
    rw [mem_states_determinize hB, discovers_map_iff hA hf]
    change _ ↔ r ∈ (A.determinize keepSink).states.map fun s => s.map f
    simp only [FinSet.mem_map, mem_states_determinize hA]
  case ha => rfl
  case hi => rfl
  case hf =>
    intro r
    rw [mem_finals_determinize hB, discovers_map_iff hA hf]
    change _ ∧ (∃ q, q ∈ r ∧ q ∈ A.finals.map f) ↔
      r ∈ (A.determinize keepSink).finals.map fun s => s.map f
    simp only [FinSet.mem_map, mem_finals_determinize hA]
    constructor
    · rintro ⟨⟨s, hs, e⟩, q, hq, p, hp, hpq⟩
      subst e hpq
      rcases FinSet.mem_map.mp hq with ⟨p', hp', e⟩
      -- A name in the set is the name of a member, as no other state has it.
      rw [hf p' p (hs.mem_states hA hp') (hA.finals_mem p hp) e] at hp'
      exact ⟨s, ⟨hs, p, hp', hp⟩, rfl⟩
    · rintro ⟨s, ⟨hs, p, hps, hp⟩, e⟩
      subst e
      exact ⟨⟨s, hs, rfl⟩, f p, FinSet.mem_map.mpr ⟨p, hps, rfl⟩, p, hp, rfl⟩
  case he =>
    intro r a u
    rw [edge_determinize hB, discovers_map_iff hA hf, edge_map]
    simp only [edge_determinize hA]
    constructor
    · rintro ⟨⟨s, hs, e⟩, hm⟩
      subst e
      rcases (mem_moves_visit_map hA hf fun _ => hs.mem_states hA).mp hm with ⟨t, ht, e⟩
      exact ⟨s, t, ⟨hs, ht⟩, rfl, e⟩
    · rintro ⟨s, t, ⟨hs, ht⟩, hsr, htu⟩
      subst hsr htu
      refine ⟨⟨s, hs, rfl⟩, ?_⟩
      exact (mem_moves_visit_map hA hf fun _ => hs.mem_states hA).mpr ⟨t, ht, rfl⟩

/--
The names of states do not matter, nor does their order. If different states get different names,
the renamed automaton accepts the same words and gives the same answers about determinism, and its
deterministic automata are those of the original one with every set of states renamed to the set of
the new names of its members; different sets stay different.
-/
theorem toDfa_map_and_toCompleteDfa_map :
    (A.map f).IsValid ∧ (∀ w, (A.map f).accepts w = A.accepts w) ∧
      (A.map f).isDeterministic = A.isDeterministic ∧
      (A.map f).isPartialDfa = A.isPartialDfa ∧
      (A.map f).toDfa = A.toDfa.map (fun s => s.map f) ∧
      (A.map f).toCompleteDfa = A.toCompleteDfa.map (fun s => s.map f) ∧
      A.toDfa.Distinguishes (fun s => s.map f) ∧
      A.toCompleteDfa.Distinguishes fun s => s.map f := by
  rcases resembles_map hA hf with ⟨_, haccepts, hpartial, hdeterministic⟩
  exact ⟨hA.map f, haccepts, hdeterministic, hpartial, determinize_map hA hf,
    determinize_map hA hf, distinguishes_determinize_map hA hf,
    distinguishes_determinize_map hA hf⟩

end

def mirrored (state : Int) : String := toString (-state)

theorem distinguishes_mirrored : branching.Distinguishes mirrored := by
  have h : ∀ p, p ∈ branching.states.toList → ∀ q, q ∈ branching.states.toList →
      mirrored p = mirrored q → p = q := by
    decide +kernel
  intro p q hp hq
  exact h p hp q hq

theorem toDfa_map_and_toCompleteDfa_map_mirrored :
    branching.IsValid ∧ branching.Distinguishes mirrored ∧
      Ordered.Lt (mirrored 3) (mirrored 0) ∧ Ordered.Lt (mirrored 2) (mirrored 3) ∧
      (∀ w, (branching.map mirrored).accepts w = branching.accepts w) ∧
      (branching.map mirrored).isDeterministic = branching.isDeterministic ∧
      (branching.map mirrored).isPartialDfa = branching.isPartialDfa ∧
      .ofList ["-3", "-2"] ∈ (branching.map mirrored).toDfa.states ∧
      (branching.map mirrored).toDfa = branching.toDfa.map (fun s => s.map mirrored) ∧
      (branching.map mirrored).toCompleteDfa =
        branching.toCompleteDfa.map fun s => s.map mirrored := by
  rcases toDfa_map_and_toCompleteDfa_map isValid_branching distinguishes_mirrored with
    ⟨_, haccepts, hdeterministic, hpartial, hdfa, hcomplete, _, _⟩
  have hs : .ofList ["-3", "-2"] ∈ (branching.map mirrored).toDfa.states := by
    rw [← FinSet.contains_iff]
    decide +kernel
  refine ⟨isValid_branching, distinguishes_mirrored, ?_, ?_, haccepts, hdeterministic, hpartial, hs,
    hdfa, hcomplete⟩
  · decide +kernel
  · decide +kernel

end Automaton

end RegLang
