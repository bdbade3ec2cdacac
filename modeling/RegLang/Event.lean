import RegLang.Text.Listed

/-!
This module contains the events that generation, membership tests and the subset construction
report, and their wording. States stand in an event by their texts, so that automata over any type
of states share one type of events.
-/

namespace RegLang

inductive Event where
  | generationStarted (start : Char)
  | productionApplied (nonTerminal : Char) (production : String)
  | deadEnd (nonTerminal : Char)
  | generated (text : String)
  | inputStarted (input : String) (states : List String)
  | stepped (symbol : Char) (source target : List String)
  | stuck (symbol : Char) (states : List String)
  | inputFinished (states : List String) (accepted : Bool)
  | subsetDiscovered (state : String) (isFinal : Bool)
  | subsetTransition (source : String) (symbol : Char) (target : String)
  deriving Repr, DecidableEq

namespace Event

def text : Event → String
  | generationStarted start => s!"starting generation at {start}"
  | productionApplied nonTerminal production => s!"applying {nonTerminal} → {production}"
  | deadEnd nonTerminal => s!"no productions for {nonTerminal}"
  | generated text => s!"generated '{text}'"
  | inputStarted input states => s!"checking '{input}' from " ++ Text.braced states
  | stepped symbol source target =>
    Text.braced source ++ s!" --{symbol}--> " ++ Text.braced target
  | stuck symbol states => s!"no transition on '{symbol}' from " ++ Text.braced states
  | inputFinished states accepted =>
    "ended at " ++ Text.braced states ++ s!", accepted: {accepted}"
  | subsetDiscovered state isFinal =>
    if isFinal then s!"new DFA state {state} (final)" else s!"new DFA state {state}"
  | subsetTransition source symbol target => s!"δ({source}, {symbol}) = {target}"

end Event

end RegLang
