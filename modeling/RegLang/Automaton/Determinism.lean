import RegLang.Automaton.Basic
import RegLang.Text.Listed

/-!
This module contains the check whether an automaton is a complete deterministic one, and the
reasons why it is not.
-/

namespace RegLang

inductive Nondeterminism (σ : Type) [Ordered σ] where
  | multipleSuccessors (state : σ) (symbol : Char) (successors : FinSet σ)
  | noTransitions (state : σ)
  | missingTransition (state : σ) (symbol : Char)

namespace Nondeterminism

variable {σ : Type} [Ordered σ] [ToString σ]

def text : Nondeterminism σ → String
  | multipleSuccessors state symbol successors =>
    s!"state {state} has multiple transitions on '{symbol}': " ++ Text.braced successors.names
  | noTransitions state => s!"state {state} has no transitions"
  | missingTransition state symbol => s!"state {state} has no transition on '{symbol}'"

end Nondeterminism

namespace Automaton

variable {σ : Type} [Ordered σ]

def branching? (A : Automaton σ) : Option (Nondeterminism σ) :=
  A.transitions.entries.findSome? fun row => row.2.entries.findSome? fun cell =>
    if 1 < cell.2.size then some (.multipleSuccessors row.1 cell.1 cell.2) else none

def gap? (A : Automaton σ) (state : σ) : Option (Nondeterminism σ) :=
  if A.canMove state then
    (A.alphabet.find? fun symbol => (A.successors? state symbol).isNone).map
      (.missingTransition state)
  else
    some (.noTransitions state)

/--
The first reason why an automaton is not complete and deterministic: several successors anywhere
come before what the states lack, state by state.
-/
def nondeterminism? (A : Automaton σ) : Option (Nondeterminism σ) :=
  A.branching?.or (A.states.toList.findSome? A.gap?)

def isDeterministic (A : Automaton σ) : Bool := A.nondeterminism?.isNone

def isPartialDfa (A : Automaton σ) : Bool :=
  A.transitions.values.all fun row => row.values.all fun targets => targets.size ≤ 1

end Automaton

end RegLang
