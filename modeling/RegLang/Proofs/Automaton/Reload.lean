import RegLang.Proofs.Automaton.Definition
import RegLang.Proofs.Automaton.Determinize
import RegLang.Proofs.Text.Listed

/-!
This module contains what becomes of a deterministic automaton over sets of states that is written
as a definition and read again. The sets of states are named by their texts then, and sets with the
same text become one state.
-/

namespace RegLang

namespace FinSet

variable {s t : FinSet String}

theorem toString_eq_braced : toString s = Text.braced s.toList :=
  congrArg Text.braced (List.map_id s.toList)

theorem toString_inj (hs : ∀ q, q ∈ s → Text.IsListable q) (ht : ∀ q, q ∈ t → Text.IsListable q)
    (hse : s ≠ .empty) (hte : t ≠ .empty) : toString s = toString t ↔ s = t := by
  rw [toString_eq_braced, toString_eq_braced, ← toList_inj]
  apply Text.braced_inj hs ht
  · exact fun h => hse (ext_toList h)
  · exact fun h => hte (ext_toList h)

theorem toString_eq_toString_empty_iff :
    toString s = toString (empty : FinSet String) ↔ s = .empty ∨ s = .singleton "" := by
  rw [toString_eq_braced, toString_eq_braced, ← toList_inj, ← toList_inj]
  exact Text.braced_eq_braced_nil_iff

end FinSet

namespace Automaton

variable {A : Automaton String} {keepSink : Bool} {s t : FinSet String}

theorem distinguishes_determinize (hA : A.IsValid) (hn : ∀ q, q ∈ A.states → Text.IsListable q)
    (he : .empty ∈ (A.determinize keepSink).states →
      ¬ .singleton "" ∈ (A.determinize keepSink).states) :
    (A.determinize keepSink).Distinguishes toString := by
  have hlist (s : FinSet String) (hs : s ∈ (A.determinize keepSink).states) :
      ∀ q, q ∈ s → Text.IsListable q := by
    intro q hq
    exact hn q (((mem_states_determinize hA).mp hs).mem_states hA hq)
  intro s t hs ht h
  by_cases hse : s = .empty
  · subst hse
    rcases FinSet.toString_eq_toString_empty_iff.mp h.symm with e | e
    · exact e.symm
    · exact absurd (e ▸ ht) (he hs)
  · by_cases hte : t = .empty
    · subst hte
      rcases FinSet.toString_eq_toString_empty_iff.mp h with e | e
      · exact e
      · exact absurd (e ▸ hs) (he ht)
    · exact (FinSet.toString_inj (hlist s hs) (hlist t ht) hse hte).mp h

theorem distinguishes_toDfa (hA : A.IsValid) (hn : ∀ q, q ∈ A.states → Text.IsListable q) :
    A.toDfa.Distinguishes toString := by
  apply distinguishes_determinize hA hn
  intro he
  exact absurd rfl ((mem_states_determinize hA).mp he).ne_empty

theorem distinguishes_toCompleteDfa_iff (hA : A.IsValid)
    (hn : ∀ q, q ∈ A.states → Text.IsListable q) :
    A.toCompleteDfa.Distinguishes toString ↔
      ¬ (.empty ∈ A.toCompleteDfa.states ∧ .singleton "" ∈ A.toCompleteDfa.states) := by
  constructor
  · rintro h ⟨he, hs⟩
    have e := h _ _ he hs (FinSet.toString_eq_toString_empty_iff.mpr (.inr rfl)).symm
    cases e
  · intro h
    apply distinguishes_determinize hA hn
    intro he hs
    exact h ⟨he, hs⟩

/--
The deterministic automata can be written and read again, and then accept at least the words of the
automaton. If no state holds the separator of written sets, they accept no others. For the one with
the sink this needs in addition that the empty set and the set of the empty name, which are written
alike, are not both states of it.
-/
theorem exists_reload_toDfa_and_toCompleteDfa (hA : A.IsValid) :
    ∃ B C, A.toDfa.reload = .ok B ∧ A.toCompleteDfa.reload = .ok C ∧
      (∀ w, A.accepts w = true → B.accepts w = true ∧ C.accepts w = true) ∧
      ((∀ q, q ∈ A.states → Text.IsListable q) →
        A.toDfa.Distinguishes toString ∧ (∀ w, B.accepts w = A.accepts w) ∧
        (¬ (.empty ∈ A.toCompleteDfa.states ∧ .singleton "" ∈ A.toCompleteDfa.states) →
          A.toCompleteDfa.Distinguishes toString ∧ ∀ w, C.accepts w = A.accepts w)) := by
  have hdfa : A.toDfa.IsValid := isValid_determinize hA
  have hcomplete : A.toCompleteDfa.IsValid := isValid_determinize hA
  refine ⟨_, _, reload_eq hdfa, reload_eq hcomplete, ?_, ?_⟩
  · intro w hw
    constructor
    · apply accepts_map_of_accepts
      rw [toDfa_eq_determinize, accepts_determinize hA]
      exact hw
    · apply accepts_map_of_accepts
      rw [toCompleteDfa_eq_determinize, accepts_determinize hA]
      exact hw
  · intro hn
    have hd := distinguishes_toDfa hA hn
    refine ⟨hd, ?_, ?_⟩
    · intro w
      rw [accepts_map hdfa hd, toDfa_eq_determinize, accepts_determinize hA]
    · intro he
      have hc := (distinguishes_toCompleteDfa_iff hA hn).mpr he
      refine ⟨hc, ?_⟩
      intro w
      rw [accepts_map hcomplete hc, toCompleteDfa_eq_determinize, accepts_determinize hA]

def punctuated : Automaton String where
  states := .ofList ["", " ,", "0,", "\x7b0\x7d"]
  alphabet := .ofList ['a', 'b']
  transitions := .ofTriples
    [(" ,", 'a', "0,"), (" ,", 'a', "\x7b0\x7d"), ("0,", 'b', " ,"), ("0,", 'b', "")]
  initial := " ,"
  finals := .ofList ["", "\x7b0\x7d"]

theorem isValid_punctuated : punctuated.IsValid := by
  apply isValid_of_checked (A := punctuated)
  rfl

theorem isListable_of_mem_states_punctuated :
    ∀ q, q ∈ punctuated.states.toList → Text.IsListable q := by
  decide +kernel

theorem singleton_not_mem_states_punctuated :
    ¬ .singleton "" ∈ punctuated.toCompleteDfa.states := by
  rw [← FinSet.contains_eq_false_iff]
  decide +kernel

theorem exists_reload_toDfa_and_toCompleteDfa_punctuated :
    punctuated.IsValid ∧ ∃ B C, punctuated.toDfa.reload = .ok B ∧
      punctuated.toCompleteDfa.reload = .ok C ∧
        ∀ w, B.accepts w = punctuated.accepts w ∧ C.accepts w = punctuated.accepts w := by
  rcases exists_reload_toDfa_and_toCompleteDfa isValid_punctuated with ⟨B, C, hB, hC, _, h⟩
  rcases h isListable_of_mem_states_punctuated with ⟨_, hdfa, h⟩
  rcases h fun hs => singleton_not_mem_states_punctuated hs.2 with ⟨_, hcomplete⟩
  exact ⟨isValid_punctuated, B, C, hB, hC, fun w => ⟨hdfa w, hcomplete w⟩⟩

def listed : Automaton String where
  states := .ofList ["p", "r", "s", "r, s"]
  alphabet := .ofList ['a', 'b']
  transitions := .ofTriples [("p", 'a', "r"), ("p", 'a', "s"), ("p", 'b', "r, s")]
  initial := "p"
  finals := .singleton "r, s"

theorem isValid_listed : listed.IsValid := by
  apply isValid_of_checked (A := listed)
  rfl

theorem exists_reload_toDfa_accepts_ne :
    listed.IsValid ∧ ∃ B, listed.toDfa.reload = .ok B ∧ B.accepts ['a'] ≠ listed.accepts ['a'] := by
  refine ⟨isValid_listed, _, reload_eq (isValid_determinize isValid_listed), ?_⟩
  decide +kernel

end Automaton

end RegLang
