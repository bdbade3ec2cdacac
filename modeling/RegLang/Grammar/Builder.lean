import RegLang.Grammar.Basic

/-!
This module contains the construction of a grammar from written rules. Its symbols are inferred from
the rules: the start symbol, the left-hand sides and the ASCII capitals of the right-hand sides are
non-terminals, all else on a right-hand side is a terminal.
-/

namespace RegLang

namespace Grammar

structure Builder where
  start : Char
  rules : List (Char × List Char) := []
  maxDepth : Nat := 100
  deriving Repr, DecidableEq

namespace Builder

def addRule (b : Builder) (lhs : Char) (rhs : List Char) : Builder :=
  { b with rules := b.rules ++ [(lhs, Text.trim rhs)] }

def addRules (b : Builder) (lhs : Char) (alternatives : List (List Char)) : Builder :=
  { b with rules := b.rules ++ alternatives.map fun rhs => (lhs, Text.trim rhs) }

def withMaxDepth (b : Builder) (depth : Nat) : Builder := { b with maxDepth := depth }

def nonTerminals (b : Builder) : FinSet Char :=
  .ofList (b.start :: b.rules.flatMap fun r => r.1 :: r.2.filter Char.isUpper)

def productions (b : Builder) : List (Char × Production) :=
  let nonTerminals := b.nonTerminals
  b.rules.map fun r => (r.1, Production.parse nonTerminals r.2)

def terminals (b : Builder) : FinSet Char :=
  .ofList <| b.productions.flatMap fun r => (r.2.symbols.filter Symbol.isTerminal).map Symbol.char

def grouped (rules : List (Char × Production)) : FinMap Char (List Production) :=
  rules.foldl (fun m r => m.update r.1 fun ps => ps.getD [] ++ [r.2]) .empty

def build (b : Builder) : Except Error Grammar :=
  checked
    { nonTerminals := b.nonTerminals
      terminals := b.terminals
      productions := grouped b.productions
      start := b.start
      maxDepth := b.maxDepth }

end Builder

end Grammar

end RegLang
