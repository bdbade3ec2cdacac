import RegLang.Proofs.Automaton.ToGrammar
import RegLang.Proofs.Grammar.Classification

/-!
This module contains the level of the grammar that an automaton is converted to. All its productions
are right-linear, and it is regular if and only if no state but the initial one is final.
-/

namespace RegLang

namespace Automaton

variable {σ : Type} [Ordered σ] {A : Automaton σ} {names : FinMap σ Char} {g : Grammar} {q : σ}

namespace IsGrammarOf

variable (h : A.IsGrammarOf names g)

include h

theorem epsilon_mem_productionsFor_iff {c : Char} :
    .epsilon ∈ g.productionsFor c ↔ ∃ q, names.get? q = some c ∧ q ∈ A.finals := by
  rw [h.mem_productionsFor]
  simp only [epsilon_mem_stateProductions]

theorem eq_initial_iff {c : Char} (hq : names.get? q = some c) : q = A.initial ↔ c = g.start := by
  constructor
  · intro e
    subst e
    rw [h.start, Option.some.injEq] at hq
    exact hq.symm
  · intro e
    subst e
    exact h.isNaming.injective q A.initial g.start hq h.start

theorem forall_vanishing_iff (hA : A.IsValid) :
    (∀ c, .epsilon ∈ g.productionsFor c → c = g.start) ↔ ∀ q, q ∈ A.finals → q = A.initial := by
  simp only [h.epsilon_mem_productionsFor_iff]
  constructor
  · intro hc q hq
    rcases h.isNaming.exists_name q (hA.finals_mem q hq) with ⟨c, hname⟩
    exact (h.eq_initial_iff hname).mpr (hc c ⟨q, hname, hq⟩)
  · rintro hq c ⟨q, hname, hf⟩
    exact (h.eq_initial_iff hname).mp (hq q hf)

theorem regular_iff (hA : A.IsValid) :
    g.classification.regular = true ↔ ∀ q, q ∈ A.finals → q = A.initial := by
  rw [← h.forall_vanishing_iff hA, Grammar.regular_classification_iff]
  constructor
  · intro hr c hc
    rcases hr c .epsilon hc with ⟨a, e⟩ | ⟨a, B, e⟩ | ⟨_, e⟩
    · cases e
    · cases e
    · exact e
  · intro hc B p hp
    rcases Production.exists_of_shape_ne_other (h.isRightLinear B p hp) with e | e | e
    · exact .inr (.inr ⟨e, hc B (e ▸ hp)⟩)
    · exact .inl e
    · exact .inr (.inl e)

theorem eq_initial_of_contextSensitive (hA : A.IsValid)
    (hs : g.classification.contextSensitive = true) (hq : q ∈ A.finals) : q = A.initial := by
  rw [Grammar.contextSensitive_classification_iff] at hs
  exact (h.forall_vanishing_iff hA).mp (fun c hc => (hs c hc).1) q hq

theorem classify_eq_unrestricted_iff (hA : A.IsValid) :
    g.classify = .unrestricted ↔ ∃ q, q ∈ A.finals ∧ q ≠ A.initial := by
  rw [Grammar.classify_eq_unrestricted_iff, h.regular_iff hA]
  constructor
  · rintro ⟨hr, _⟩
    simpa using hr
  · rintro ⟨q, hq, hne⟩
    constructor
    · intro hr
      exact hne (hr q hq)
    · intro hs
      exact hne (h.eq_initial_of_contextSensitive hA hs hq)

end IsGrammarOf

/--
The grammar of an automaton has productions of the shapes `ε`, `a` and `aB` alone. It is regular if
no state but the initial one is final, and otherwise it is of the lowest level.
-/
theorem exists_toGrammar?_classify_eq (hA : A.IsValid)
    (hn : A.states.size ≤ A.freeLetters.length) :
    ∃ g, A.toGrammar? = some g ∧
      (∀ B p, p ∈ g.productionsFor B →
        p = .epsilon ∨ (∃ a, p = .letter a) ∨ ∃ a C, p = .step a C) ∧
      (g.classify = .regular ↔ ∀ q, q ∈ A.finals → q = A.initial) ∧
      (g.classify = .unrestricted ↔ ∃ q, q ∈ A.finals ∧ q ≠ A.initial) := by
  rcases exists_toGrammar? hA hn with ⟨g, hg⟩
  rcases exists_isGrammarOf hA hg with ⟨names, h⟩
  refine ⟨g, hg, ?_, ?_, h.classify_eq_unrestricted_iff hA⟩
  · intro B p hp
    exact Production.exists_of_shape_ne_other (h.isRightLinear B p hp)
  · rw [Grammar.classify_eq_regular_iff, h.regular_iff hA]

def returning : Automaton Int := { deadEnded with finals := .singleton 0 }

theorem isValid_returning : returning.IsValid := by
  apply isValid_of_checked (A := returning)
  rfl

theorem exists_toGrammar?_classify_eq_deadEnded_and_returning :
    deadEnded.IsValid ∧ deadEnded.states.size ≤ deadEnded.freeLetters.length ∧
      (∃ g, deadEnded.toGrammar? = some g ∧ g.classify = .unrestricted) ∧
      returning.IsValid ∧ returning.states.size ≤ returning.freeLetters.length ∧
        ∃ g, returning.toGrammar? = some g ∧ g.classify = .regular := by
  have hsize : returning.states.size ≤ returning.freeLetters.length := size_deadEnded_le
  rcases exists_toGrammar?_classify_eq isValid_deadEnded size_deadEnded_le with ⟨g, hg, _, _, hu⟩
  rcases exists_toGrammar?_classify_eq isValid_returning hsize with ⟨g', hg', _, hr, _⟩
  have hfinal : (2 : Int) ∈ deadEnded.finals := by
    rw [← FinSet.contains_iff]
    decide
  refine ⟨isValid_deadEnded, size_deadEnded_le, ⟨g, hg, hu.mpr ⟨2, hfinal, by decide⟩⟩,
    isValid_returning, hsize, g', hg', hr.mpr ?_⟩
  intro q hq
  exact FinSet.mem_singleton.mp hq

end Automaton

end RegLang
