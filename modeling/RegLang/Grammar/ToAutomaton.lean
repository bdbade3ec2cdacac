import RegLang.Automaton.Basic
import RegLang.Grammar.Basic

/-!
This module contains the conversion of a grammar to an automaton. Its states are the non-terminals
and one more that accepts; the productions of no right-linear shape are left out.
-/

namespace RegLang

namespace Grammar

def acceptingState : String := "qf"

def triple? (lhs : Char) (p : Production) : Option (String × Char × String) :=
  match p.shape with
  | .letter a => some (lhs.toString, a, acceptingState)
  | .step a next => some (lhs.toString, a, next.toString)
  | .empty => none
  | .other => none

def toAutomaton (g : Grammar) : Automaton String where
  states := .ofList (acceptingState :: g.nonTerminals.toList.map Char.toString)
  alphabet := g.terminals
  transitions := .ofTriples (g.rules.filterMap fun r => triple? r.1 r.2)
  initial := g.start.toString
  finals := .ofList <|
    acceptingState :: (g.rules.filter fun r => r.2.isEmpty).map fun r => r.1.toString

end Grammar

end RegLang
