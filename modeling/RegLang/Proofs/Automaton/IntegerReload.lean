import RegLang.Proofs.Automaton.Definition
import RegLang.Proofs.Automaton.Renaming
import RegLang.Proofs.Text.Decimal

/-!
This module contains what becomes of a deterministic automaton over sets of integers that is written
as a definition and made into an automaton again. The texts of sets of integers are all different,
so only the names of the states change.
-/

namespace RegLang

namespace Automaton

variable {A : Automaton Int}

theorem distinguishes_toString_int (A : Automaton (FinSet Int)) : A.Distinguishes toString := by
  intro s t _ _ h
  exact FinSet.toString_int_inj.mp h

theorem exists_resembles_toAutomaton_ofAutomaton {A : Automaton (FinSet Int)} (hA : A.IsValid) :
    ∃ B, (Definition.ofAutomaton A).toAutomaton = .ok B ∧ A.Resembles B :=
  ⟨_, Definition.toAutomaton_ofAutomaton hA, resembles_map hA (distinguishes_toString_int A)⟩

/--
Different sets of integers have different texts. Therefore the deterministic automata of an
automaton over integers come back from their definitions with as many states, accept the words that
the automaton accepts, and pass the same checks for determinism.
-/
theorem exists_toAutomaton_ofAutomaton_toDfa_and_toCompleteDfa (hA : A.IsValid) :
    (∀ s t : FinSet Int, toString s = toString t → s = t) ∧
      ∃ B C, (Definition.ofAutomaton A.toDfa).toAutomaton = .ok B ∧
        (Definition.ofAutomaton A.toCompleteDfa).toAutomaton = .ok C ∧
          A.toDfa.Resembles B ∧ A.toCompleteDfa.Resembles C ∧
            ∀ w, B.accepts w = A.accepts w ∧ C.accepts w = A.accepts w := by
  constructor
  · intro s t h
    exact FinSet.toString_int_inj.mp h
  · have hdfa : A.toDfa.IsValid := isValid_determinize hA
    have hcomplete : A.toCompleteDfa.IsValid := isValid_determinize hA
    rcases exists_resembles_toAutomaton_ofAutomaton hdfa with ⟨B, hB, hBA⟩
    rcases exists_resembles_toAutomaton_ofAutomaton hcomplete with ⟨C, hC, hCA⟩
    refine ⟨B, C, hB, hC, hBA, hCA, ?_⟩
    intro w
    constructor
    · rw [hBA.accepts, toDfa_eq_determinize, accepts_determinize hA]
    · rw [hCA.accepts, toCompleteDfa_eq_determinize, accepts_determinize hA]

def signed : Automaton Int where
  states := .ofList [-9223372036854775808, -1, 1, 12, 9223372036854775807]
  alphabet := .ofList ['a', 'b']
  transitions := .ofTriples
    [(1, 'a', -1), (1, 'a', 12), (12, 'a', 1), (-1, 'b', -9223372036854775808),
      (12, 'b', 9223372036854775807), (9223372036854775807, 'a', 12)]
  initial := 1
  finals := .ofList [-1, 9223372036854775807]

theorem isValid_signed : signed.IsValid := by
  apply isValid_of_checked (A := signed)
  rfl

theorem exists_toAutomaton_ofAutomaton_toDfa_and_toCompleteDfa_signed :
    signed.IsValid ∧ ∃ B C, (Definition.ofAutomaton signed.toDfa).toAutomaton = .ok B ∧
      (Definition.ofAutomaton signed.toCompleteDfa).toAutomaton = .ok C ∧
        B.states.size = 5 ∧ C.states.size = 6 ∧ B.isPartialDfa = true ∧
          B.isDeterministic = false ∧ C.isDeterministic = true ∧
            ∀ w, B.accepts w = signed.accepts w ∧ C.accepts w = signed.accepts w := by
  rcases (exists_toAutomaton_ofAutomaton_toDfa_and_toCompleteDfa isValid_signed).2 with
    ⟨B, C, hB, hC, hdfa, hcomplete, haccepts⟩
  refine ⟨isValid_signed, B, C, hB, hC, ?_, ?_, ?_, ?_, ?_, haccepts⟩
  · rw [hdfa.size_states]
    decide +kernel
  · rw [hcomplete.size_states]
    decide +kernel
  · rw [hdfa.isPartialDfa]
    decide +kernel
  · rw [hdfa.isDeterministic]
    decide +kernel
  · rw [hcomplete.isDeterministic]
    decide +kernel

end Automaton

end RegLang
