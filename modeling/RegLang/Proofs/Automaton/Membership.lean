import Mathlib.Data.Fin.Tuple.Basic
import RegLang.Automaton.Path

/-!
This module contains what a membership test decides: whether the states of an automaton can be
lined up along the word, from the initial state to a final one.
-/

namespace RegLang

namespace Automaton

variable {σ : Type} [Ordered σ] {A : Automaton σ} {p r : σ} {a : Char} {w : List Char}

def Follows (A : Automaton σ) (word : List Char) (states : Fin (word.length + 1) → σ) : Prop :=
  ∀ i : Fin word.length, ∃ targets,
    A.successors? (states i.castSucc) word[i] = some targets ∧ states i.succ ∈ targets

theorem follows_nil {states : Fin 1 → σ} : A.Follows [] states := by
  intro i
  exact i.elim0

theorem follows_cons {states : Fin (w.length + 1) → σ} :
    A.Follows (a :: w) (Fin.cons p states) ↔ A.Edge p a (states 0) ∧ A.Follows w states := by
  unfold Follows
  apply Fin.forall_fin_succ

theorem path_iff_exists_follows :
    A.Path p w r ↔ ∃ states : Fin (w.length + 1) → σ,
      states 0 = p ∧ A.Follows w states ∧ states (Fin.last w.length) = r := by
  induction w generalizing p with
  | nil =>
    rw [path_nil]
    constructor
    · intro h
      exact ⟨fun _ => p, rfl, follows_nil, h⟩
    · rintro ⟨states, hp, _, hr⟩
      rw [← hp, ← hr]
      rfl
  | cons a w ih =>
    simp only [path_cons, ih]
    constructor
    · rintro ⟨q, e, states, hq, hs, hr⟩
      subst hq
      exact ⟨Fin.cons p states, rfl, follows_cons.mpr ⟨e, hs⟩, hr⟩
    · rintro ⟨states, hp, hs, hr⟩
      -- The first state is `p`, and the others follow each other along the rest of the word.
      rw [← Fin.cons_self_tail states, follows_cons, hp] at hs
      exact ⟨Fin.tail states 0, hs.1, Fin.tail states, rfl, hs.2, hr⟩

def LeadsToFinal (A : Automaton σ) (source : σ) (word : List Char) : Prop :=
  ∃ state, A.Path source word state ∧ state ∈ A.finals

theorem leadsToFinal_nil : A.LeadsToFinal p [] ↔ p ∈ A.finals := by
  simp [LeadsToFinal]

theorem leadsToFinal_cons :
    A.LeadsToFinal p (a :: w) ↔ ∃ q, A.Edge p a q ∧ A.LeadsToFinal q w := by
  simp only [LeadsToFinal, path_cons]
  constructor
  · rintro ⟨r, ⟨q, e, h⟩, hf⟩
    exact ⟨q, e, r, h, hf⟩
  · rintro ⟨q, e, r, h, hf⟩
    exact ⟨r, ⟨q, e, h⟩, hf⟩

theorem accepts_iff_hasAcceptingPath : A.accepts w = true ↔ A.HasAcceptingPath w := by
  simp only [accepts_eq_any, FinSet.any_iff, mem_reached, isFinal, FinSet.contains_iff,
    HasAcceptingPath]

instance : Decidable (A.HasAcceptingPath w) := decidable_of_iff _ accepts_iff_hasAcceptingPath

theorem accepts_iff_leadsToFinal : A.accepts w = true ↔ A.LeadsToFinal A.initial w :=
  accepts_iff_hasAcceptingPath

theorem accepts_iff_exists_states (A : Automaton σ) (w : List Char) :
    A.accepts w = true ↔ ∃ states : Fin (w.length + 1) → σ,
      states 0 = A.initial ∧
      (∀ i : Fin w.length, ∃ targets,
        A.successors? (states i.castSucc) w[i] = some targets ∧ states i.succ ∈ targets) ∧
      states (Fin.last w.length) ∈ A.finals := by
  rw [accepts_iff_hasAcceptingPath]
  simp only [HasAcceptingPath, path_iff_exists_follows]
  constructor
  · rintro ⟨state, ⟨states, hi, hs, hl⟩, hf⟩
    exact ⟨states, hi, hs, hl ▸ hf⟩
  · rintro ⟨states, hi, hs, hf⟩
    exact ⟨_, ⟨states, hi, hs, rfl⟩, hf⟩

end Automaton

end RegLang
