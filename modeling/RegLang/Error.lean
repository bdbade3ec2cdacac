import RegLang.Json.Problem
import RegLang.Text.Quoted

/-!
This module contains the reasons why a grammar or an automaton cannot be had, and their wording.
-/

namespace RegLang

inductive FileProblem where
  | missing
  | notUtf8
  deriving Repr, DecidableEq

inductive Error where
  /-- A line of rule text is no rule; lines count from one. -/
  | malformedRule (line : Nat) (text : String)
  | emptyAlternative (line : Nat) (text : String)
  | malformedKey (key : String)
  | noRules
  | unknownNonTerminal (symbol : Char)
  | overlappingSymbol (symbol : Char)
  | unknownSymbol (symbol : Char)
  | reservedSymbol (symbol : Char)
  | unknownState (name : String)
  | depthExceeded (limit : Nat)
  | json (problem : Json.Problem)
  | file (problem : FileProblem)
  deriving Repr, DecidableEq

namespace Error

def message : Error → String
  | malformedRule line text => s!"Parse error: line {line}: {text}"
  | emptyAlternative line text =>
    s!"Parse error: line {line}: empty alternative in '{text}' (write ε for the empty string)"
  | malformedKey key =>
    "Parse error: production key must be a single character: "
      ++ String.ofList (Text.Quoted.encode key.toList)
  | noRules => "Invalid grammar: no rules found"
  | unknownNonTerminal c => s!"Unknown non-terminal: {c}"
  | overlappingSymbol c => s!"Symbol is both terminal and non-terminal: {c}"
  | unknownSymbol c => s!"Unknown symbol: {c}"
  | reservedSymbol c => s!"Reserved symbol cannot appear in a grammar or alphabet: {c}"
  | unknownState name => s!"Unknown state: {name}"
  | depthExceeded limit => s!"Generation exceeded the maximum recursion depth of {limit}"
  | json .malformed => "JSON error: malformed text"
  | json .truncated => "JSON error: text ends too early"
  | json .mismatched => "JSON error: unexpected value"
  | file .missing => "IO error: no such file"
  | file .notUtf8 => "IO error: file is not UTF-8"

end Error

end RegLang
