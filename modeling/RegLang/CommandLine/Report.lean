import RegLang.Automaton.Determinism
import RegLang.Automaton.Printer
import RegLang.Automaton.Run
import RegLang.Automaton.Subset
import RegLang.Automaton.ToGrammar
import RegLang.Grammar.Classification
import RegLang.Grammar.Generation
import RegLang.Grammar.Printer
import RegLang.Grammar.ToAutomaton
import RegLang.Observer

/-!
This module contains the reports that the program prints about grammars and automata.
-/

namespace RegLang

namespace CommandLine

def checkLine {σ : Type} [Ordered σ] [ToString σ] (o : Observer) (A : Automaton σ)
    (input : String) : String :=
  o.printed (A.runEvents input.toList)
    ++ s!"'{input}' belongs to language: {A.accepts input.toList}\n"

def checkReport {σ : Type} [Ordered σ] [ToString σ] (o : Observer) (A : Automaton σ)
    (checks : List String) : String :=
  if checks.isEmpty then ""
  else "=== Checking strings ===\n" ++ String.join (checks.map (checkLine o A))

def generationLine (o : Observer) (g : Grammar) (number : Nat) (result : Grammar.Generation) :
    String :=
  o.printed (g.generationEvents result)
    ++ if result.completed then
        s!"{number}. '{String.ofList result.text}'\n"
      else
        s!"{number}. no string produced: {(Error.depthExceeded g.maxDepth).message}\n"

def generationLines (o : Observer) (g : Grammar) (number : Nat) :
    (count : Nat) → WordSource → String × WordSource
  | 0, source => ("", source)
  | count + 1, source =>
    let result := g.generation source
    let (lines, source) := generationLines o g (number + 1) count result.source
    (generationLine o g number result ++ lines, source)

def grammarReport (o : Observer) (g : Grammar) (count : Nat) (checks : List String)
    (source : WordSource) : String × WordSource :=
  let (lines, source) := generationLines o g 1 count source
  let report :=
    s!"\n=== Grammar ===\n{g.text}\n"
      ++ s!"Classification: {g.classify.text}\n"
      ++ s!"\n=== Generating {count} strings ===\n" ++ lines
      ++ s!"\n=== Equivalent automaton ===\n{g.toAutomaton.text}\n"
      ++ checkReport o g.toAutomaton checks
  (report, source)

def determinizationReport (o : Observer) (A : Automaton String) (checks : List String) : String :=
  if A.isDeterministic then ""
  else
    let dfa := A.toDfa
    o.printed A.subsetEvents
      ++ s!"\n=== Converted DFA ===\n{dfa.text}\n"
      ++ checkReport o dfa checks

/--
What is printed about an automaton, and whether that is all of it: without enough letters to name
the states the report ends before the grammar.
-/
def automatonReport (o : Observer) (A : Automaton String) (checks : List String) : String × Bool :=
  let verdict :=
    match A.nondeterminism? with
    | none => "true"
    | some reason => s!"false ({reason.text})"
  let head := s!"\n=== Automaton ===\n{A.text}\n" ++ s!"Is Deterministic: {verdict}\n"
  match A.toGrammar? with
  | none => (head, false)
  | some g =>
    (head
      ++ s!"\n=== Equivalent grammar ===\n{g.text}\n"
      ++ s!"Classification: {g.classify.text}\n"
      ++ checkReport o A checks
      ++ determinizationReport o A checks, true)

end CommandLine

end RegLang
