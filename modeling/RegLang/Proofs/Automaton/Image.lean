import RegLang.Automaton.Image
import RegLang.Proofs.Automaton.Edge
import RegLang.Proofs.Automaton.Membership

/-!
This module contains what renaming the states of an automaton does to it: the renamed automaton is
valid, it accepts at least the words that were accepted before, and no others if different states
get different names. The parts of an automaton and the names fix the renamed automaton. To leave out
no state changes nothing.
-/

namespace RegLang

namespace Automaton

variable {σ τ : Type} [Ordered σ] [Ordered τ] {A : Automaton σ} {B C : Automaton τ} {f : σ → τ}
  {p q : σ} {r : τ} {a : Char} {w : List Char}

theorem IsValid.map (hA : A.IsValid) (f : σ → τ) : (A.map f).IsValid := by
  apply isValid_of_edges
  case hp => exact Transitions.isPruned_ofTriples
  case hε => exact hA.epsilon_not_mem
  case hi => exact FinSet.mem_map.mpr ⟨_, hA.initial_mem, rfl⟩
  case hf =>
    intro r hr
    rcases FinSet.mem_map.mp hr with ⟨q, hq, e⟩
    exact FinSet.mem_map.mpr ⟨q, hA.finals_mem q hq, e⟩
  case he =>
    intro r a s e
    rcases edge_map.mp e with ⟨p, q, e, hp, hq⟩
    rcases hA.mem_of_edge e with ⟨hps, ha, hqs⟩
    exact ⟨FinSet.mem_map.mpr ⟨p, hps, hp⟩, ha, FinSet.mem_map.mpr ⟨q, hqs, hq⟩⟩

theorem IsValid.restrict_eq_self (hA : A.IsValid) {keeps : σ → Bool}
    (h : ∀ q, q ∈ A.states → keeps q = true) : A.restrict keeps = A := by
  apply eq_of_edges Transitions.isPruned_ofTriples hA.isPruned
  case hs =>
    intro q
    exact FinSet.mem_filter.trans (and_iff_left_of_imp (h q))
  case ha => rfl
  case hi => rfl
  case hf =>
    intro q
    exact FinSet.mem_filter.trans (and_iff_left_of_imp fun hq => h q (hA.finals_mem q hq))
  case he =>
    intro p a q
    rw [edge_restrict]
    apply and_iff_left_of_imp
    intro e
    rcases hA.mem_of_edge e with ⟨hp, _, hq⟩
    exact ⟨h p hp, h q hq⟩

theorem Path.map (h : A.Path p w q) (f : σ → τ) :
    (A.map f).Path (f p) w (f q) := by
  induction h with
  | nil => exact .nil _
  | cons e _ ih => exact .cons (edge_map.mpr ⟨_, _, e, rfl, rfl⟩) ih

theorem accepts_map_of_accepts (f : σ → τ) (h : A.accepts w = true) :
    (A.map f).accepts w = true := by
  rw [accepts_iff_hasAcceptingPath] at h ⊢
  rcases h with ⟨q, h, hq⟩
  exact ⟨f q, h.map f, FinSet.mem_map.mpr ⟨q, hq, rfl⟩⟩

structure IsImage (f : σ → τ) (A : Automaton σ) (B : Automaton τ) : Prop where
  mem_states : ∀ r, r ∈ B.states ↔ ∃ q, q ∈ A.states ∧ f q = r
  alphabet : B.alphabet = A.alphabet
  edge : ∀ r a s, B.Edge r a s ↔ ∃ p q, A.Edge p a q ∧ f p = r ∧ f q = s
  initial : B.initial = f A.initial
  mem_finals : ∀ r, r ∈ B.finals ↔ ∃ q, q ∈ A.finals ∧ f q = r
  isPruned : B.transitions.IsPruned

theorem isImage_map (f : σ → τ) : A.IsImage f (A.map f) where
  mem_states _ := FinSet.mem_map
  alphabet := rfl
  edge _ _ _ := edge_map
  initial := rfl
  mem_finals _ := FinSet.mem_map
  isPruned := Transitions.isPruned_ofTriples

theorem IsImage.unique (hB : A.IsImage f B) (hC : A.IsImage f C) : B = C := by
  apply eq_of_edges hB.isPruned hC.isPruned
  case hs =>
    intro r
    rw [hB.mem_states, hC.mem_states]
  case ha => rw [hB.alphabet, hC.alphabet]
  case hi => rw [hB.initial, hC.initial]
  case hf =>
    intro r
    rw [hB.mem_finals, hC.mem_finals]
  case he =>
    intro r a s
    rw [hB.edge, hC.edge]

theorem IsValid.isImage_self (hA : A.IsValid) {f : σ → σ} (hf : ∀ q, f q = q) :
    A.IsImage f A where
  mem_states r := by simp [hf]
  alphabet := rfl
  edge r a s := by simp [hf]
  initial := (hf A.initial).symm
  mem_finals r := by simp [hf]
  isPruned := hA.isPruned

def Distinguishes (A : Automaton σ) (f : σ → τ) : Prop :=
  ∀ p q, p ∈ A.states → q ∈ A.states → f p = f q → p = q

theorem exists_path_of_path_map (hA : A.IsValid) (hf : A.Distinguishes f) (hp : p ∈ A.states)
    (h : (A.map f).Path (f p) w r) : ∃ q, q ∈ A.states ∧ f q = r ∧ A.Path p w q := by
  induction w generalizing p with
  | nil =>
    rw [path_nil] at h
    exact ⟨p, hp, h, .nil p⟩
  | cons a w ih =>
    rcases path_cons.mp h with ⟨s, hs, h⟩
    rcases edge_map.mp hs with ⟨p', q, e, hp', hq⟩
    subst hq
    rcases hA.mem_of_edge e with ⟨hp's, _, hq⟩
    rw [hf p' p hp's hp hp'] at e
    rcases ih hq h with ⟨t, ht, hr, h⟩
    exact ⟨t, ht, hr, .cons e h⟩

theorem accepts_map (hA : A.IsValid) (hf : A.Distinguishes f) :
    (A.map f).accepts w = A.accepts w := by
  rw [Bool.eq_iff_iff]
  constructor
  · intro h
    rw [accepts_iff_hasAcceptingPath] at h ⊢
    rcases h with ⟨r, h, hr⟩
    rcases exists_path_of_path_map hA hf hA.initial_mem h with ⟨q, hq, hqr, h⟩
    rcases FinSet.mem_map.mp hr with ⟨t, ht, htr⟩
    rw [hf q t hq (hA.finals_mem t ht) (hqr.trans htr.symm)] at h
    exact ⟨t, h, ht⟩
  · exact accepts_map_of_accepts f

end Automaton

end RegLang
