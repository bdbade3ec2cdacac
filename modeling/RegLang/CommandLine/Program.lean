import RegLang.Automaton.Builder
import RegLang.CommandLine.Invocation
import RegLang.CommandLine.Report
import RegLang.File
import RegLang.Grammar.Builder

/-!
This module contains the program: what it prints and how it ends for given arguments and files.
-/

namespace RegLang

namespace CommandLine

structure Outcome where
  exitCode : UInt8
  output : String
  deriving Repr, DecidableEq

namespace Outcome

def misuse : Outcome := ⟨2, ""⟩

def failure (output : String) : Outcome := ⟨1, output⟩

def success (output : String) : Outcome := ⟨0, output⟩

/--
The outcome of a report that is complete or ends early.
-/
def ofReport (report : String × Bool) : Outcome := ⟨if report.2 then 0 else 101, report.1⟩

end Outcome

namespace Demo

def grammar : Grammar.Builder :=
  Grammar.Builder.mk 'S' [] 100
    |>.addRule 'S' ['a', 'D']
    |>.addRule 'D' ['b', 'E']
    |>.addRules 'E' [['c', 'F'], ['d', 'L']]
    |>.addRule 'F' ['d', 'D']
    |>.addRules 'L' [['a', 'L'], ['b', 'L'], ['c']]

def grammarChecks : List String := ["abcd", "abdc", "abc", "adc", "abbbbc"]

def automaton : Automaton.Builder String :=
  Automaton.Builder.mk "q0" ["q0"] [] [] []
    |>.addFinal "q3"
    |>.addTransition "q0" 'a' "q1"
    |>.addTransition "q1" 'a' "q1"
    |>.addTransition "q1" 'b' "q2"
    |>.addTransition "q2" 'b' "q2"
    |>.addTransition "q2" 'b' "q3"
    |>.addTransition "q3" 'a' "q1"

def automatonChecks : List String := ["a", "ab", "abb", "abba", "abbab", "abbabbabba"]

end Demo

def runGrammar (o : Observer) (file : String) (loaded : Except Error Grammar) (count : Nat)
    (checks : List String) (maxDepth : Option Nat) (source : WordSource) : Outcome :=
  let head := s!"Loading grammar from {file}...\n"
  match loaded with
  | .error _ => .failure head
  | .ok g =>
    let g := g.withMaxDepth (maxDepth.getD g.maxDepth)
    .success (head ++ (grammarReport o g count checks source).1)

def runAutomaton (o : Observer) (file : String) (loaded : Except Error (Automaton String))
    (checks : List String) : Outcome :=
  let head := s!"Loading automaton from {file}...\n"
  match loaded with
  | .error _ => .failure head
  | .ok A =>
    let (report, isComplete) := automatonReport o A checks
    .ofReport (head ++ report, isComplete)

def runDemo (o : Observer) (source : WordSource) : Outcome :=
  match Demo.grammar.build, Demo.automaton.build with
  | .ok g, .ok A =>
    let (report, isComplete) := automatonReport o A Demo.automatonChecks
    .ofReport ((grammarReport o g 5 Demo.grammarChecks source).1 ++ report, isComplete)
  | _, _ => .failure ""

def Invocation.run (i : Invocation) (files : Files) (source : WordSource) : Outcome :=
  let o := if i.trace then Observer.console else .noop
  match i.command with
  | .grammar file count checks maxDepth =>
    runGrammar o file (files.loadGrammar file) count checks maxDepth source
  | .automaton file checks => runAutomaton o file (files.loadAutomaton file) checks
  | .demo => runDemo o source

def run (arguments : List String) (files : Files) (source : WordSource) : Outcome :=
  match Invocation.ofArguments? arguments with
  | none => .misuse
  | some i => i.run files source

end CommandLine

end RegLang
