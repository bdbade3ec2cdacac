import RegLang.Ordered

/-!
This module contains the symbols of a grammar.
-/

namespace RegLang

/--
The character that writes the empty string. It is never a symbol itself.
-/
def epsilon : Char := 'ε'

inductive Symbol where
  | terminal (letter : Char)
  | nonTerminal (name : Char)
  deriving Repr, DecidableEq

namespace Symbol

def char : Symbol → Char
  | terminal c => c
  | nonTerminal c => c

def isTerminal : Symbol → Bool
  | terminal _ => true
  | nonTerminal _ => false

theorem ext {s t : Symbol} (h : s.isTerminal = t.isTerminal) (h' : s.char = t.char) : s = t := by
  cases s <;> cases t <;> simp_all [isTerminal, char]

instance : Ord Symbol := ⟨compareLex (compareOn fun s => !s.isTerminal) (compareOn char)⟩

instance : Std.TransOrd Symbol := inferInstanceAs (Std.TransCmp (compareLex _ _))

instance : Ordered Symbol where
  lawfulEqOrd :=
    { eq_of_compare := fun h =>
        have ⟨h, h'⟩ := compareLex_eq_eq.mp h
        ext (Bool.not_inj (Std.LawfulEqCmp.eq_of_compare h)) (Ordered.eq_of_compare h') }

end Symbol

end RegLang
