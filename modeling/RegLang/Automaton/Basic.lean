import RegLang.Error
import RegLang.Symbol
import RegLang.Transitions.Basic

/-!
This module contains finite automata whose transition relation may be nondeterministic, and the
check that the parts of an automaton agree with each other.
-/

namespace RegLang

structure Automaton (σ : Type) [Ordered σ] where
  states : FinSet σ
  alphabet : FinSet Char
  transitions : Transitions σ
  initial : σ
  finals : FinSet σ
  deriving DecidableEq

namespace Automaton

variable {σ : Type} [Ordered σ]

def isFinal (A : Automaton σ) (state : σ) : Bool := A.finals.contains state

def canMove (A : Automaton σ) (state : σ) : Bool := A.transitions.contains state

def successors? (A : Automaton σ) (state : σ) (symbol : Char) : Option (FinSet σ) :=
  A.transitions.successors? state symbol

def step (A : Automaton σ) (states : FinSet σ) (symbol : Char) : FinSet σ :=
  states.bind fun state => (A.successors? state symbol).getD .empty

def pruned (A : Automaton σ) : Automaton σ := { A with transitions := A.transitions.pruned }

variable [ToString σ]

def strangerProblem? (A : Automaton σ) (states : FinSet σ) : Option Error :=
  (states.find? fun state => !A.states.contains state).map fun state =>
    .unknownState (toString state)

def cellProblem? (A : Automaton σ) (symbol : Char) (targets : FinSet σ) : Option Error :=
  if A.alphabet.contains symbol then A.strangerProblem? targets else some (.unknownSymbol symbol)

def rowProblem? (A : Automaton σ) (state : σ) (row : FinMap Char (FinSet σ)) : Option Error :=
  if A.states.contains state then
    row.entries.findSome? fun cell => A.cellProblem? cell.1 cell.2
  else
    some (.unknownState (toString state))

/--
The first thing wrong with an automaton: a reserved symbol, then the initial state, then the final
states, then the transitions in order of state and symbol.
-/
def problem? (A : Automaton σ) : Option Error :=
  if A.alphabet.contains epsilon then
    some (.reservedSymbol epsilon)
  else if A.states.contains A.initial then
    (A.strangerProblem? A.finals).or <|
      A.transitions.entries.findSome? fun row => A.rowProblem? row.1 row.2
  else
    some (.unknownState (toString A.initial))

def checked (A : Automaton σ) : Except Error (Automaton σ) :=
  match A.problem? with
  | some e => .error e
  | none => .ok A.pruned

def ofTriples (states : List σ) (alphabet : List Char) (triples : List (σ × Char × σ)) (initial : σ)
    (finals : List σ) : Except Error (Automaton σ) :=
  checked
    { states := .ofList states
      alphabet := .ofList alphabet
      transitions := .ofTriples triples
      initial := initial
      finals := .ofList finals }

end Automaton

end RegLang
