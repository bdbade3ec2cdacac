import RegLang.Automaton.Builder
import RegLang.Automaton.Definition
import RegLang.Automaton.Determinism
import RegLang.Automaton.Image
import RegLang.Automaton.Path
import RegLang.Automaton.Printer
import RegLang.Automaton.Run
import RegLang.Automaton.Subset
import RegLang.Automaton.ToGrammar
import RegLang.Automaton.Validity
import RegLang.CommandLine.Program
import RegLang.Conversion
import RegLang.File
import RegLang.FinMap.Lemmas
import RegLang.FinSet.Lemmas
import RegLang.FinSet.Sorted
import RegLang.Grammar.Builder
import RegLang.Grammar.Classification
import RegLang.Grammar.Definition
import RegLang.Grammar.Derivation
import RegLang.Grammar.Generation
import RegLang.Grammar.Printer
import RegLang.Grammar.Replay
import RegLang.Grammar.RuleText
import RegLang.Grammar.ToAutomaton
import RegLang.Grammar.Tree
import RegLang.Grammar.Validity
import RegLang.Main
import RegLang.Observer
import RegLang.Production.Json
import RegLang.Proofs.Automaton.BreadthFirst
import RegLang.Proofs.Automaton.Builder
import RegLang.Proofs.Automaton.Complement
import RegLang.Proofs.Automaton.Definition
import RegLang.Proofs.Automaton.Determinism
import RegLang.Proofs.Automaton.Determinize
import RegLang.Proofs.Automaton.Edge
import RegLang.Proofs.Automaton.Exploration
import RegLang.Proofs.Automaton.Generation
import RegLang.Proofs.Automaton.GrammarReload
import RegLang.Proofs.Automaton.GrammarType
import RegLang.Proofs.Automaton.Image
import RegLang.Proofs.Automaton.IntegerReload
import RegLang.Proofs.Automaton.Membership
import RegLang.Proofs.Automaton.NameOrder
import RegLang.Proofs.Automaton.Naming
import RegLang.Proofs.Automaton.Nondeterminism
import RegLang.Proofs.Automaton.OneLine
import RegLang.Proofs.Automaton.Parts
import RegLang.Proofs.Automaton.Priority
import RegLang.Proofs.Automaton.ReachablePart
import RegLang.Proofs.Automaton.Reached
import RegLang.Proofs.Automaton.Reload
import RegLang.Proofs.Automaton.Renaming
import RegLang.Proofs.Automaton.RunEvents
import RegLang.Proofs.Automaton.SubsetEvents
import RegLang.Proofs.Automaton.Termination
import RegLang.Proofs.Automaton.ToGrammar
import RegLang.Proofs.CommandLine.Automaton
import RegLang.Proofs.CommandLine.Trace
import RegLang.Proofs.Conversion.Language
import RegLang.Proofs.Conversion.Validity
import RegLang.Proofs.Except
import RegLang.Proofs.FinMap.OfList
import RegLang.Proofs.FinSet.Canonical
import RegLang.Proofs.FinSet.Size
import RegLang.Proofs.Grammar.Acceptance
import RegLang.Proofs.Grammar.Blank
import RegLang.Proofs.Grammar.Builder
import RegLang.Proofs.Grammar.Classification
import RegLang.Proofs.Grammar.Definition
import RegLang.Proofs.Grammar.DepthLimit
import RegLang.Proofs.Grammar.Derivation
import RegLang.Proofs.Grammar.Generation
import RegLang.Proofs.Grammar.Layout
import RegLang.Proofs.Grammar.LinearGeneration
import RegLang.Proofs.Grammar.NonContracting
import RegLang.Proofs.Grammar.Problem
import RegLang.Proofs.Grammar.Reload
import RegLang.Proofs.Grammar.Replay
import RegLang.Proofs.Grammar.RuleText
import RegLang.Proofs.Grammar.ToAutomaton
import RegLang.Proofs.Json.Lexer
import RegLang.Proofs.Json.Reader
import RegLang.Proofs.Json.RoundTrip
import RegLang.Proofs.Json.Text
import RegLang.Proofs.Ordered.Shortlex
import RegLang.Proofs.Production.Blank
import RegLang.Proofs.Production.Parse
import RegLang.Proofs.Production.Printed
import RegLang.Proofs.Text.Decimal
import RegLang.Proofs.Text.Letter
import RegLang.Proofs.Text.Line
import RegLang.Proofs.Text.Listed
import RegLang.Proofs.Transitions.Pruned
import RegLang.Proofs.WordSource
import RegLang.Transitions.Lemmas
