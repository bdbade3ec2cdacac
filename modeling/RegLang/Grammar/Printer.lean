import RegLang.Grammar.Basic
import RegLang.Text.Listed

/-!
This module contains the text that describes a grammar.
-/

namespace RegLang

namespace Grammar

def ruleLine (lhs : Char) (alternatives : List Production) : String :=
  s!"  {lhs} → " ++ " | ".intercalate (alternatives.map toString) ++ "\n"

def text (g : Grammar) : String :=
  "Non-terminals (VN): " ++ toString g.nonTerminals ++ "\n"
    ++ "Terminals (VT): " ++ toString g.terminals ++ "\n"
    ++ s!"Start Symbol (S): {g.start}\n"
    ++ "Productions (P):\n"
    ++ String.join (g.productions.entries.map fun e => ruleLine e.1 e.2)

instance : ToString Grammar := ⟨text⟩

end Grammar

end RegLang
