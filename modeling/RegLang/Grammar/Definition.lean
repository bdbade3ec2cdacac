import RegLang.Grammar.Basic
import RegLang.Json.Basic
import RegLang.Json.Reader.Collection
import RegLang.Json.Reader.Record

/-!
This module contains the definitions of grammars: what a JSON text says of a grammar before it is
checked, how it is read and written, and how it becomes a grammar.
-/

namespace RegLang

namespace Grammar

structure Definition where
  nonTerminals : List Char
  terminals : List Char
  productions : FinMap String (List String)
  start : Char
  deriving DecidableEq

namespace Definition

structure Draft where
  nonTerminals : Option (List Char) := none
  terminals : Option (List Char) := none
  productions : Option (List (String × List String)) := none
  start : Option Char := none

def Draft.finish (d : Draft) : Option Definition :=
  return {
    nonTerminals := ← d.nonTerminals
    terminals := ← d.terminals
    productions := .ofList (← d.productions)
    start := ← d.start }

def Draft.fields : List (Json.Reader.Field Draft) :=
  [.of "non_terminals" (.list .char) (·.nonTerminals) fun d a => { d with nonTerminals := some a },
   .of "terminals" (.list .char) (·.terminals) fun d a => { d with terminals := some a },
   .of "productions" (.object (.list .string)) (·.productions) fun d a =>
    { d with productions := some a },
   .of "start" .char (·.start) fun d a => { d with start := some a }]

def reader : Json.Reader Definition := .record Draft.fields {} Draft.finish

def ofJson (text : List Char) : Except Error Definition := Json.read reader text

def toJson (d : Definition) : Json :=
  .object
    [("non_terminals", .list (d.nonTerminals.map .ofChar)),
     ("terminals", .list (d.terminals.map .ofChar)),
     ("productions", .object (d.productions.entries.map fun e => (e.1, .list (e.2.map .text)))),
     ("start", .ofChar d.start)]

def ofGrammar (g : Grammar) : Definition where
  nonTerminals := g.nonTerminals.toList
  terminals := g.terminals.toList
  productions := .ofList (g.productions.entries.map fun e => (e.1.toString, e.2.map toString))
  start := g.start

def lhs (key : String) : Except Error Char :=
  match key.toList with
  | [c] => .ok c
  | _ => .error (.malformedKey key)

def entry (nonTerminals : FinSet Char) (e : String × List String) :
    Except Error (Char × List Production) := do
  return (← lhs e.1, e.2.map fun rhs => Production.parse nonTerminals rhs.toList)

def toGrammar (d : Definition) : Except Error Grammar := do
  let nonTerminals := .ofList d.nonTerminals
  let entries ← d.productions.entries.mapM (entry nonTerminals)
  checked
    { nonTerminals := nonTerminals
      terminals := .ofList d.terminals
      productions := .ofList entries
      start := d.start }

end Definition

def reload (g : Grammar) : Except Error Grammar := do
  (← Definition.ofJson (Definition.ofGrammar g).toJson.pretty).toGrammar

end Grammar

end RegLang
