import RegLang.Automaton.Basic
import RegLang.Text.Listed

/-!
This module contains the text that describes an automaton.
-/

namespace RegLang

namespace Automaton

variable {σ : Type} [Ordered σ] [ToString σ]

def transitionLine (state : σ) (symbol : Char) (targets : FinSet σ) : String :=
  s!"  δ({state}, {symbol}) = " ++ Text.braced targets.names ++ "\n"

def text (A : Automaton σ) : String :=
  "States (Q): " ++ Text.braced A.states.names ++ "\n"
    ++ "Alphabet (Σ): " ++ Text.braced A.alphabet.names ++ "\n"
    ++ s!"Initial State (q0): {A.initial}\n"
    ++ "Final States (F): " ++ Text.braced A.finals.names ++ "\n"
    ++ "Transition Function (δ):\n"
    ++ String.join (A.transitions.entries.map fun row =>
      String.join (row.2.entries.map fun cell => transitionLine row.1 cell.1 cell.2))

end Automaton

end RegLang
