import RegLang.Automaton.Definition
import RegLang.Proofs.Automaton.Image
import RegLang.Proofs.Json.Reader

/-!
This module contains the round trip of definitions of automata through JSON text, and what comes
back when an automaton is written as a definition and read again: its image under the texts of its
states. Where the texts of states are different nothing is lost.
-/

namespace RegLang

namespace Automaton

namespace Definition

open Json.Reader

theorem Transition.reads_toJson (t : Transition) : reader.Reads t.toJson t := by
  apply Fills.reads_record (d := ⟨some t.source, some t.symbol, some t.target⟩)
  · apply Fills.cons rfl rfl reads_string.readOf
    apply Fills.cons rfl rfl reads_char.readOf
    apply Fills.cons rfl rfl reads_string.readOf
    apply Fills.nil
  · rfl

theorem reads_toJson (d : Definition) : reader.Reads d.toJson d := by
  apply Fills.reads_record
    (d := ⟨some d.states, some d.alphabet, some d.transitions, some d.initial, some d.finals⟩)
  · apply Fills.cons rfl rfl (reads_list (fun _ => reads_string) _).readOf
    apply Fills.cons rfl rfl (reads_list (fun _ => reads_char) _).readOf
    apply Fills.cons rfl rfl (reads_list Transition.reads_toJson _).readOf
    apply Fills.cons rfl rfl reads_string.readOf
    apply Fills.cons rfl rfl (reads_list (fun _ => reads_string) _).readOf
    apply Fills.nil
  · rfl

theorem ofJson_toJson (d : Definition) : ofJson d.toJson.pretty = .ok d :=
  d.reads_toJson.read_pretty

variable {σ : Type} [Ordered σ] [ToString σ] {A : Automaton σ}

theorem toAutomaton_ofAutomaton (hA : A.IsValid) :
    (ofAutomaton A).toAutomaton = .ok (A.map toString) := by
  have htriples : (ofAutomaton A).transitions.map Transition.triple =
      A.transitions.triples.map fun t => (toString t.1, t.2.1, toString t.2.2) := by
    unfold ofAutomaton
    rw [List.map_map]
    rfl
  unfold toAutomaton ofTriples
  rw [htriples]
  unfold ofAutomaton
  rw [FinSet.ofList_toList]
  exact (hA.map toString).checked_eq

theorem map_toString_eq {A : Automaton String} (hA : A.IsValid) : A.map toString = A := by
  have hself : A.IsImage toString A := hA.isImage_self fun _ => rfl
  exact (isImage_map toString).unique hself

/--
The definition of an automaton becomes its image under the texts of its states. The image accepts at
least the words of the automaton, and no others if different states have different texts. An
automaton whose states are texts comes back unchanged.
-/
theorem exists_isImage_toAutomaton_ofAutomaton :
    (∀ {σ : Type} [Ordered σ] [ToString σ] (A : Automaton σ), A.IsValid →
      ∃ B, (ofAutomaton A).toAutomaton = .ok B ∧ A.IsImage toString B ∧
        (∀ w, A.accepts w = true → B.accepts w = true) ∧
        (A.Distinguishes toString → ∀ w, B.accepts w = A.accepts w)) ∧
    ∀ A : Automaton String, A.IsValid → (ofAutomaton A).toAutomaton = .ok A := by
  constructor
  · intro σ _ _ A hA
    refine ⟨A.map toString, toAutomaton_ofAutomaton hA, isImage_map toString, ?_, ?_⟩
    · intro w hw
      exact accepts_map_of_accepts toString hw
    · intro hf w
      exact accepts_map hA hf
  · intro A hA
    rw [toAutomaton_ofAutomaton hA, map_toString_eq hA]

def numbered : Automaton Int where
  states := .ofList [-1, 0, 1, 11]
  alphabet := .ofList ['a', 'b']
  transitions := .ofTriples [(0, 'a', -1), (0, 'a', 1), (-1, 'b', 0), (1, 'b', 1), (11, 'a', 0)]
  initial := 0
  finals := .ofList [1, 11]

theorem isValid_numbered : numbered.IsValid := by
  apply isValid_of_checked (A := numbered)
  rfl

theorem distinguishes_numbered : numbered.Distinguishes toString := by
  have h : ∀ p, p ∈ numbered.states.toList → ∀ q, q ∈ numbered.states.toList →
      toString p = toString q → p = q := by
    decide +kernel
  intro p q hp hq
  exact h p hp q hq

theorem exists_isImage_toAutomaton_ofAutomaton_numbered :
    numbered.IsValid ∧ numbered.Distinguishes toString ∧
      (∃ B, (ofAutomaton numbered).toAutomaton = .ok B ∧ numbered.IsImage toString B ∧
        (numbered.accepts ['a', 'b', 'b'] = true → B.accepts ['a', 'b', 'b'] = true) ∧
        ∀ w, B.accepts w = numbered.accepts w) ∧
      (ofAutomaton (numbered.map toString)).toAutomaton = .ok (numbered.map toString) := by
  refine ⟨isValid_numbered, distinguishes_numbered, ?_, ?_⟩
  · rcases exists_isImage_toAutomaton_ofAutomaton.1 numbered isValid_numbered with
      ⟨B, hB, himage, haccepts, hsame⟩
    exact ⟨B, hB, himage, haccepts _, hsame distinguishes_numbered⟩
  · exact exists_isImage_toAutomaton_ofAutomaton.2 _ (isValid_numbered.map toString)

end Definition

variable {σ : Type} [Ordered σ] [ToString σ] {A : Automaton σ}

theorem reload_eq (hA : A.IsValid) : A.reload = .ok (A.map toString) := by
  unfold reload
  rw [Definition.ofJson_toJson, Json.Reader.ok_bind, Definition.toAutomaton_ofAutomaton hA]

end Automaton

end RegLang
