import RegLang.Automaton.Basic
import RegLang.Event

/-!
This module contains the run of an automaton on a word: the sets of states it can be in after each
symbol, up to the end of the word or to the symbol on which no state has a transition.
-/

namespace RegLang

inductive Run (σ : Type) [Ordered σ] where
  | finished (states : FinSet σ)
  | stuck (states : FinSet σ) (symbol : Char)
  | stepped (states : FinSet σ) (symbol : Char) (rest : Run σ)

namespace Run

variable {σ : Type} [Ordered σ]

def start : Run σ → FinSet σ
  | finished states => states
  | stuck states _ => states
  | stepped states _ _ => states

def final? : Run σ → Option (FinSet σ)
  | finished states => some states
  | stuck _ _ => none
  | stepped _ _ rest => rest.final?

end Run

namespace Automaton

variable {σ : Type} [Ordered σ]

def runFrom (A : Automaton σ) : FinSet σ → List Char → Run σ
  | states, [] => .finished states
  | states, symbol :: word =>
    let next := A.step states symbol
    if next.isEmpty then .stuck states symbol else .stepped states symbol (A.runFrom next word)

def run (A : Automaton σ) (word : List Char) : Run σ := A.runFrom (.singleton A.initial) word

def isAccepting (A : Automaton σ) (r : Run σ) : Bool :=
  match r.final? with
  | some states => states.any A.isFinal
  | none => false

def accepts (A : Automaton σ) (word : List Char) : Bool := A.isAccepting (A.run word)

variable [ToString σ]

def stepEvents (A : Automaton σ) : Run σ → List Event
  | .finished states => [.inputFinished states.names (states.any A.isFinal)]
  | .stuck states symbol => [.stuck symbol states.names]
  | .stepped states symbol rest =>
    .stepped symbol states.names rest.start.names :: A.stepEvents rest

def runEvents (A : Automaton σ) (word : List Char) : List Event :=
  let r := A.run word
  .inputStarted (String.ofList word) r.start.names :: A.stepEvents r

end Automaton

end RegLang
