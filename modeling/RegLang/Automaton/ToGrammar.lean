import RegLang.Automaton.Naming
import RegLang.Grammar.Basic

/-!
This module contains the conversion of an automaton to a right-linear grammar.
-/

namespace RegLang

namespace Automaton

variable {σ : Type} [Ordered σ]

def transitionProductions (A : Automaton σ) (names : FinMap σ Char) (symbol : Char) (target : σ) :
    List Production :=
  (if A.isFinal target then [.letter symbol] else [])
    ++ if !A.isFinal target || A.canMove target then
        ((names.get? target).map (.step symbol)).toList
      else
        []

def stateProductions (A : Automaton σ) (names : FinMap σ Char) (state : σ) : List Production :=
  let row := (A.transitions.get? state).getD .empty
  let moves := row.entries.flatMap fun cell =>
    cell.2.toList.flatMap (A.transitionProductions names cell.1)
  (moves ++ if A.isFinal state then [Production.epsilon] else []).eraseDups

def toGrammar? (A : Automaton σ) : Option Grammar := do
  let names ← A.stateNames?
  let start ← names.get? A.initial
  return {
    nonTerminals := .ofList names.values
    terminals := A.alphabet
    productions := .ofList (names.entries.map fun e => (e.2, A.stateProductions names e.1))
    start := start }

end Automaton

end RegLang
