import RegLang.Automaton.Basic
import RegLang.Text.Letter

/-!
This module contains the naming of the states of an automaton by the non-terminals of a grammar.
-/

namespace RegLang

namespace Automaton

variable {σ : Type} [Ordered σ]

def freeLetters (A : Automaton σ) : List Char :=
  Text.nameLetters.filter fun c => !A.alphabet.contains c && c != epsilon

def nameSupply (A : Automaton σ) : List Char :=
  if 'S' ∈ A.freeLetters then 'S' :: A.freeLetters.filter (· != 'S') else A.freeLetters

def namingOrder (A : Automaton σ) : List σ :=
  A.initial :: A.states.toList.filter fun state => compare state A.initial != .eq

def stateNames? (A : Automaton σ) : Option (FinMap σ Char) :=
  if A.namingOrder.length ≤ A.nameSupply.length then
    some (.ofList (A.namingOrder.zip A.nameSupply))
  else
    none

end Automaton

end RegLang
