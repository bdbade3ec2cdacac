import RegLang.Error
import RegLang.FinMap.Basic
import RegLang.Production

/-!
This module contains grammars whose productions each replace a single non-terminal, and the check
that the parts of a grammar agree with each other.
-/

namespace RegLang

/--
A grammar. A non-terminal may be a key of `productions` without having an alternative.
-/
structure Grammar where
  nonTerminals : FinSet Char
  terminals : FinSet Char
  productions : FinMap Char (List Production)
  start : Char
  /-- How many expansions may be nested while a string is generated. -/
  maxDepth : Nat := 100
  deriving DecidableEq

namespace Grammar

def productionsFor (g : Grammar) (nonTerminal : Char) : List Production :=
  (g.productions.get? nonTerminal).getD []

def rules (g : Grammar) : List (Char × Production) :=
  g.productions.entries.flatMap fun e => e.2.map (e.1, ·)

def withMaxDepth (g : Grammar) (depth : Nat) : Grammar := { g with maxDepth := depth }

def symbolProblem? (g : Grammar) : Symbol → Option Error
  | .terminal c => if g.terminals.contains c then none else some (.unknownSymbol c)
  | .nonTerminal c => if g.nonTerminals.contains c then none else some (.unknownNonTerminal c)

def entryProblem? (g : Grammar) (lhs : Char) (alternatives : List Production) : Option Error :=
  if g.nonTerminals.contains lhs then
    (alternatives.flatMap Production.symbols).findSome? g.symbolProblem?
  else
    some (.unknownNonTerminal lhs)

/--
The first thing wrong with a grammar: a reserved symbol, then the least symbol of both kinds, then
the start symbol, then the productions in the order of their left-hand sides.
-/
def problem? (g : Grammar) : Option Error :=
  if g.nonTerminals.contains epsilon || g.terminals.contains epsilon then
    some (.reservedSymbol epsilon)
  else
    match g.nonTerminals.find? g.terminals.contains with
    | some c => some (.overlappingSymbol c)
    | none =>
      if g.nonTerminals.contains g.start then
        g.productions.entries.findSome? fun e => g.entryProblem? e.1 e.2
      else
        some (.unknownNonTerminal g.start)

def checked (g : Grammar) : Except Error Grammar :=
  match g.problem? with
  | some e => .error e
  | none => .ok g

end Grammar

end RegLang
