import RegLang.Conversion
import RegLang.Proofs.Automaton.Determinize
import RegLang.Proofs.Automaton.ToGrammar
import RegLang.Proofs.Except
import RegLang.Proofs.Grammar.ToAutomaton

/-!
This module contains the validity of everything that can be obtained: constructors check what they
make, and conversions, which check nothing, keep validity. So its parts pass the check once more.
-/

namespace RegLang

namespace Grammar

variable {g : Grammar}

theorem exists_build_of_ofRuleText {text : List Char} (h : ofRuleText text = .ok g) :
    ∃ b : Builder, b.build = .ok g := by
  unfold ofRuleText at h
  rcases exists_of_bind_eq_ok h with ⟨rules, _, h⟩
  cases hb : RuleText.builder? rules with
  | none =>
    rw [hb] at h
    cases h
  | some b =>
    rw [hb] at h
    exact ⟨b, h⟩

theorem isValid_of_ofRuleText {text : List Char} (h : ofRuleText text = .ok g) : g.IsValid := by
  rcases exists_build_of_ofRuleText h with ⟨b, hb⟩
  exact isValid_of_checked hb

theorem Definition.isValid_of_toGrammar {d : Definition} (h : d.toGrammar = .ok g) :
    g.IsValid := by
  unfold Definition.toGrammar at h
  rcases exists_of_bind_eq_ok h with ⟨entries, _, h⟩
  exact isValid_of_checked h

end Grammar

namespace Device

variable {σ : Type} [Ordered σ] [ToString σ] {A : Automaton σ} {d e : Device} {c : Conversion}

theorem convert?_toGrammar :
    (automaton A).convert? .toGrammar = some e ↔ ∃ g, A.toGrammar? = some g ∧ grammar g = e :=
  Option.map_eq_some_iff

def IsValid : Device → Prop
  | automaton A => A.IsValid
  | grammar g => g.IsValid

inductive Converts : Device → Device → Prop where
  | determinize {σ : Type} [Ordered σ] [ToString σ] (A : Automaton σ) (keepSink : Bool) :
    Converts (automaton A) (automaton (A.determinize keepSink))
  | toGrammar {σ : Type} [Ordered σ] [ToString σ] {A : Automaton σ} {g : Grammar} :
    A.toGrammar? = some g → Converts (automaton A) (grammar g)
  | toAutomaton (g : Grammar) : Converts (grammar g) (automaton g.toAutomaton)

theorem converts_of_convert? (h : d.convert? c = some e) : d.Converts e := by
  cases d with
  | automaton A =>
    cases c with
    | toDfa =>
      cases h
      exact .determinize A false
    | toCompleteDfa =>
      cases h
      exact .determinize A true
    | toGrammar =>
      rcases convert?_toGrammar.mp h with ⟨g, hg, h⟩
      cases h
      exact .toGrammar hg
    | toAutomaton => cases h
  | grammar g =>
    cases c with
    | toAutomaton =>
      cases h
      exact .toAutomaton g
    | toDfa => cases h
    | toCompleteDfa => cases h
    | toGrammar => cases h

theorem IsValid.of_converts (hd : d.IsValid) (h : d.Converts e) : e.IsValid := by
  cases h with
  | determinize A keepSink => exact Automaton.isValid_determinize hd
  | toGrammar hg =>
    rcases Automaton.exists_isGrammarOf hd hg with ⟨names, hnames⟩
    exact hnames.isValid hd
  | toAutomaton g => exact Grammar.IsValid.toAutomaton hd

theorem Obtained.isValid (h : d.Obtained) : d.IsValid := by
  induction h with
  | ofTriples h => exact Automaton.isValid_of_checked h
  | ofAutomatonParts h => exact Automaton.isValid_of_checked h
  | ofAutomatonBuilder h => exact Automaton.isValid_of_checked h
  | ofAutomatonDefinition h => exact Automaton.isValid_of_checked h
  | ofGrammarParts h => exact Grammar.isValid_of_checked h
  | ofGrammarBuilder h => exact Grammar.isValid_of_checked h
  | ofRuleText h => exact Grammar.isValid_of_ofRuleText h
  | ofGrammarDefinition h => exact Grammar.Definition.isValid_of_toGrammar h
  | withMaxDepth depth _ ih => exact Grammar.IsValid.withMaxDepth ih depth
  | convert _ h ih => exact ih.of_converts (converts_of_convert? h)

/--
What is obtained passes the check and comes out as it was, a grammar with the default limit. No
automaton that is obtained stores an empty row or an empty set of successors.
-/
theorem checked_eq_of_obtained :
    (∀ {σ : Type} [Ordered σ] [ToString σ] (A : Automaton σ), Obtained (automaton A) →
      A.checked = .ok A ∧ A.transitions.IsPruned) ∧
    ∀ g, Obtained (grammar g) →
      Grammar.checked
        { nonTerminals := g.nonTerminals
          terminals := g.terminals
          productions := g.productions
          start := g.start } = .ok (g.withMaxDepth 100) := by
  constructor
  · intro σ _ _ A h
    have hA : A.IsValid := h.isValid
    exact ⟨hA.checked_eq, hA.isPruned⟩
  · intro g h
    have hg : g.IsValid := h.isValid
    exact (hg.withMaxDepth 100).checked_eq

theorem size_toDfa_alternating_le :
    Grammar.alternating.toAutomaton.toDfa.states.size ≤
      Grammar.alternating.toAutomaton.toDfa.freeLetters.length := by
  apply Nat.le_trans _ Automaton.length_free_capitals_le
  decide +kernel

theorem checked_eq_of_obtained_alternating :
    Obtained (automaton Grammar.alternating.toAutomaton.toDfa) ∧
      Grammar.alternating.toAutomaton.toDfa.checked = .ok Grammar.alternating.toAutomaton.toDfa ∧
      Grammar.alternating.toAutomaton.toDfa.transitions.IsPruned ∧
      ∃ g, Obtained (grammar g) ∧
        Grammar.alternating.toAutomaton.toDfa.toGrammar? = some g ∧
        Grammar.checked
          { nonTerminals := g.nonTerminals
            terminals := g.terminals
            productions := g.productions
            start := g.start } = .ok (g.withMaxDepth 100) := by
  have hdfa : Obtained (automaton Grammar.alternating.toAutomaton.toDfa) :=
    .convert (c := .toDfa)
      (.convert (c := .toAutomaton) (.ofGrammarParts Grammar.checked_alternating) rfl) rfl
  have hvalid : Grammar.alternating.toAutomaton.toDfa.IsValid := hdfa.isValid
  rcases Automaton.exists_toGrammar? hvalid size_toDfa_alternating_le with ⟨g, hg⟩
  have hgrammar : Obtained (grammar g) :=
    .convert (c := .toGrammar) hdfa (convert?_toGrammar.mpr ⟨g, hg, rfl⟩)
  rcases checked_eq_of_obtained.1 _ hdfa with ⟨hchecked, hpruned⟩
  exact ⟨hdfa, hchecked, hpruned, g, hgrammar, hg, checked_eq_of_obtained.2 g hgrammar⟩

end Device

end RegLang
