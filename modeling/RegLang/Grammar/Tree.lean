import RegLang.Grammar.Derivation

/-!
This module contains the derivation trees of grammars, their yields and their heights.
-/

namespace RegLang

namespace Grammar

inductive Tree where
  | leaf (letter : Char)
  | node (nonTerminal : Char) (children : List Tree)

namespace Tree

def root : Tree → Symbol
  | leaf a => .terminal a
  | node A _ => .nonTerminal A

mutual

def yield : Tree → List Char
  | leaf a => [a]
  | node _ children => yields children

def yields : List Tree → List Char
  | [] => []
  | t :: ts => yield t ++ yields ts

end

mutual

def height : Tree → Nat
  | leaf _ => 0
  | node _ children => maxHeight children + 1

def maxHeight : List Tree → Nat
  | [] => 0
  | t :: ts => max (height t) (maxHeight ts)

end

inductive IsOf (g : Grammar) : Tree → Prop where
  | leaf (a : Char) : IsOf g (leaf a)
  | node {A : Char} {children : List Tree} :
    ⟨children.map root⟩ ∈ g.productionsFor A → (∀ t, t ∈ children → IsOf g t) →
      IsOf g (node A children)

end Tree

end Grammar

end RegLang
