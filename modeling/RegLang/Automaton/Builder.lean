import RegLang.Automaton.Basic

/-!
This module contains the construction of an automaton part by part. The states and symbols of a
transition become states and symbols of the automaton.
-/

namespace RegLang

namespace Automaton

structure Builder (σ : Type) where
  initial : σ
  states : List σ := [initial]
  alphabet : List Char := []
  triples : List (σ × Char × σ) := []
  finals : List σ := []
  deriving Repr, DecidableEq

namespace Builder

variable {σ : Type}

def addState (b : Builder σ) (state : σ) : Builder σ := { b with states := state :: b.states }

def addFinal (b : Builder σ) (state : σ) : Builder σ :=
  { b with states := state :: b.states, finals := state :: b.finals }

def addSymbol (b : Builder σ) (symbol : Char) : Builder σ :=
  { b with alphabet := symbol :: b.alphabet }

def addTransition (b : Builder σ) (source : σ) (symbol : Char) (target : σ) : Builder σ :=
  { b with
    states := source :: target :: b.states
    alphabet := symbol :: b.alphabet
    triples := (source, symbol, target) :: b.triples }

def build [Ordered σ] [ToString σ] (b : Builder σ) : Except Error (Automaton σ) :=
  ofTriples b.states b.alphabet b.triples b.initial b.finals

end Builder

end Automaton

end RegLang
