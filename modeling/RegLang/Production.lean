import RegLang.FinSet.Basic
import RegLang.Symbol
import RegLang.Text.Blank

/-!
This module contains the right-hand sides of production rules, their written form and the reader of
that form.
-/

namespace RegLang

/--
The right-hand side of a production rule: the symbols that replace a non-terminal. Without symbols
it is the empty production, written `ε`.
-/
structure Production where
  symbols : List Symbol
  deriving Repr, DecidableEq

namespace Production

def epsilon : Production := ⟨[]⟩

def letter (a : Char) : Production := ⟨[.terminal a]⟩

def step (a next : Char) : Production := ⟨[.terminal a, .nonTerminal next]⟩

inductive Shape where
  | empty
  | letter (a : Char)
  | step (a next : Char)
  | other
  deriving Repr, DecidableEq

def shape (p : Production) : Shape :=
  match p.symbols with
  | [] => .empty
  | [.terminal a] => .letter a
  | [.terminal a, .nonTerminal b] => .step a b
  | _ => .other

def isEmpty (p : Production) : Bool := p.symbols.isEmpty

def length (p : Production) : Nat := p.symbols.length

def contains (p : Production) (s : Symbol) : Bool := decide (s ∈ p.symbols)

def text (p : Production) : List Char :=
  match p.symbols with
  | [] => [RegLang.epsilon]
  | s :: ss => (s :: ss).map Symbol.char

instance : ToString Production := ⟨fun p => String.ofList p.text⟩

def tag (nonTerminals : FinSet Char) (c : Char) : Symbol :=
  if nonTerminals.contains c then .nonTerminal c else .terminal c

/--
Read a right-hand side. Nothing and a lone `ε` are the empty production; elsewhere blanks do not
count and every other character is a symbol.
-/
def parse (nonTerminals : FinSet Char) (rhs : List Char) : Production :=
  let rhs := Text.trim rhs
  if rhs = [] ∨ rhs = [RegLang.epsilon] then
    epsilon
  else
    ⟨(rhs.filter fun c => !Text.isBlank c).map (tag nonTerminals)⟩

instance : Ord Production := ⟨fun p q => compare p.symbols q.symbols⟩

end Production

end RegLang
