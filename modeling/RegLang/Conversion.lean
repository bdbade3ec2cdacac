import RegLang.Automaton.Builder
import RegLang.Automaton.Definition
import RegLang.Automaton.Path
import RegLang.Automaton.Subset
import RegLang.Automaton.ToGrammar
import RegLang.Grammar.Definition
import RegLang.Grammar.Derivation
import RegLang.Grammar.RuleText
import RegLang.Grammar.ToAutomaton

/-!
This module contains automata and grammars as devices that describe a language, the conversions of
one device into another, and the devices that can be obtained at all: those that are built from
parts, rule text or definitions, and all that these are converted to.
-/

namespace RegLang

inductive Device : Type 1 where
  | automaton {σ : Type} [Ordered σ] [ToString σ] (A : Automaton σ)
  | grammar (g : Grammar)

inductive Conversion where
  | toDfa
  | toCompleteDfa
  | toGrammar
  | toAutomaton
  deriving Repr, DecidableEq

namespace Device

def Recognizes : Device → List Char → Prop
  | automaton A, word => A.accepts word = true
  | grammar g, word => g.Generates word

def convert? : Device → Conversion → Option Device
  | automaton A, .toDfa => some (automaton A.toDfa)
  | automaton A, .toCompleteDfa => some (automaton A.toCompleteDfa)
  | automaton A, .toGrammar => A.toGrammar?.map grammar
  | grammar g, .toAutomaton => some (automaton g.toAutomaton)
  | automaton _, .toAutomaton => none
  | grammar _, .toDfa => none
  | grammar _, .toCompleteDfa => none
  | grammar _, .toGrammar => none

def convertAll? (d : Device) (steps : List Conversion) : Option Device := steps.foldlM convert? d

/--
Whether a conversion is one of the kind of the device, and there are enough letters to name the
states of an automaton that becomes a grammar.
-/
def Admits : Device → Conversion → Prop
  | automaton _, .toDfa => True
  | automaton _, .toCompleteDfa => True
  | automaton A, .toGrammar => A.states.size ≤ A.freeLetters.length
  | grammar _, .toAutomaton => True
  | automaton _, .toAutomaton => False
  | grammar _, .toDfa => False
  | grammar _, .toCompleteDfa => False
  | grammar _, .toGrammar => False

def AdmitsAll : Device → List Conversion → Prop
  | _, [] => True
  | d, c :: steps => d.Admits c ∧ ∀ e, d.convert? c = some e → e.AdmitsAll steps

/--
The devices that can be had: what passes a check or is built, read or converted, and grammars with
another limit for their expansions.
-/
inductive Obtained : Device → Prop where
  | ofTriples {σ : Type} [Ordered σ] [ToString σ] {states : List σ} {alphabet : List Char}
      {triples : List (σ × Char × σ)} {initial : σ} {finals : List σ} {A : Automaton σ} :
    Automaton.ofTriples states alphabet triples initial finals = .ok A → Obtained (automaton A)
  | ofAutomatonParts {σ : Type} [Ordered σ] [ToString σ] {parts A : Automaton σ} :
    parts.checked = .ok A → Obtained (automaton A)
  | ofAutomatonBuilder {σ : Type} [Ordered σ] [ToString σ] {b : Automaton.Builder σ}
      {A : Automaton σ} :
    b.build = .ok A → Obtained (automaton A)
  | ofAutomatonDefinition {d : Automaton.Definition} {A : Automaton String} :
    d.toAutomaton = .ok A → Obtained (automaton A)
  | ofGrammarParts {parts g : Grammar} :
    parts.checked = .ok g → Obtained (grammar g)
  | ofGrammarBuilder {b : Grammar.Builder} {g : Grammar} :
    b.build = .ok g → Obtained (grammar g)
  | ofRuleText {text : List Char} {g : Grammar} :
    Grammar.ofRuleText text = .ok g → Obtained (grammar g)
  | ofGrammarDefinition {d : Grammar.Definition} {g : Grammar} :
    d.toGrammar = .ok g → Obtained (grammar g)
  | withMaxDepth {g : Grammar} (depth : Nat) :
    Obtained (grammar g) → Obtained (grammar (g.withMaxDepth depth))
  | convert {d e : Device} {c : Conversion} :
    Obtained d → d.convert? c = some e → Obtained e

end Device

end RegLang
