import RegLang.Automaton.Basic
import RegLang.Json.Basic
import RegLang.Json.Reader.Collection
import RegLang.Json.Reader.Record

/-!
This module contains the definitions of automata: what a JSON text says of an automaton before it
is checked, how it is read and written, and how it becomes an automaton. In a definition states
are texts.
-/

namespace RegLang

namespace Automaton

namespace Definition

structure Transition where
  source : String
  symbol : Char
  target : String
  deriving Repr, DecidableEq

namespace Transition

structure Draft where
  source : Option String := none
  symbol : Option Char := none
  target : Option String := none

def Draft.finish (d : Draft) : Option Transition :=
  return { source := ← d.source, symbol := ← d.symbol, target := ← d.target }

def Draft.fields : List (Json.Reader.Field Draft) :=
  [.of "from" .string (·.source) fun d a => { d with source := some a },
   .of "symbol" .char (·.symbol) fun d a => { d with symbol := some a },
   .of "to" .string (·.target) fun d a => { d with target := some a }]

def reader : Json.Reader Transition := .record Draft.fields {} Draft.finish

def toJson (t : Transition) : Json :=
  .object [("from", .text t.source), ("symbol", .ofChar t.symbol), ("to", .text t.target)]

def triple (t : Transition) : String × Char × String := (t.source, t.symbol, t.target)

end Transition

end Definition

structure Definition where
  states : List String
  alphabet : List Char
  transitions : List Definition.Transition
  initial : String
  finals : List String
  deriving Repr, DecidableEq

namespace Definition

structure Draft where
  states : Option (List String) := none
  alphabet : Option (List Char) := none
  transitions : Option (List Transition) := none
  initial : Option String := none
  finals : Option (List String) := none

/--
Transitions and final states may be missing; then there are none.
-/
def Draft.finish (d : Draft) : Option Definition :=
  return {
    states := ← d.states
    alphabet := ← d.alphabet
    transitions := d.transitions.getD []
    initial := ← d.initial
    finals := d.finals.getD [] }

def Draft.fields : List (Json.Reader.Field Draft) :=
  [.of "states" (.list .string) (·.states) fun d a => { d with states := some a },
   .of "alphabet" (.list .char) (·.alphabet) fun d a => { d with alphabet := some a },
   .of "transitions" (.list Transition.reader) (·.transitions) fun d a =>
    { d with transitions := some a },
   .of "initial" .string (·.initial) fun d a => { d with initial := some a },
   .of "finals" (.list .string) (·.finals) fun d a => { d with finals := some a }]

def reader : Json.Reader Definition := .record Draft.fields {} Draft.finish

def ofJson (text : List Char) : Except Error Definition := Json.read reader text

def toJson (d : Definition) : Json :=
  .object
    [("states", .list (d.states.map .text)),
     ("alphabet", .list (d.alphabet.map .ofChar)),
     ("transitions", .list (d.transitions.map Transition.toJson)),
     ("initial", .text d.initial),
     ("finals", .list (d.finals.map .text))]

def ofAutomaton {σ : Type} [Ordered σ] [ToString σ] (A : Automaton σ) : Definition where
  states := A.states.names
  alphabet := A.alphabet.toList
  transitions := A.transitions.triples.map fun t => ⟨toString t.1, t.2.1, toString t.2.2⟩
  initial := toString A.initial
  finals := A.finals.names

def toAutomaton (d : Definition) : Except Error (Automaton String) :=
  ofTriples d.states d.alphabet (d.transitions.map Transition.triple) d.initial d.finals

end Definition

def reload {σ : Type} [Ordered σ] [ToString σ] (A : Automaton σ) :
    Except Error (Automaton String) := do
  (← Definition.ofJson (Definition.ofAutomaton A).toJson.pretty).toAutomaton

end Automaton

end RegLang
