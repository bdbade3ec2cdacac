import RegLang.Grammar.Generation

/-!
This module contains the replay of expansions: each of them replaces the leftmost non-terminal of a
sequence of symbols.
-/

namespace RegLang

namespace Grammar

namespace Expansion

def replacement? (g : Grammar) (nonTerminal : Char) : Expansion → Option (List Symbol)
  | applied lhs p =>
    if lhs = nonTerminal ∧ p ∈ g.productionsFor nonTerminal then some p.symbols else none
  | deadEnd lhs =>
    if lhs = nonTerminal ∧ g.productionsFor nonTerminal = [] then some [] else none

def expandLeftmost? (g : Grammar) (e : Expansion) : List Symbol → Option (List Symbol)
  | [] => none
  | .terminal c :: symbols => (expandLeftmost? g e symbols).map (.terminal c :: ·)
  | .nonTerminal c :: symbols => (e.replacement? g c).map (· ++ symbols)

end Expansion

def replay? (g : Grammar) (symbols : List Symbol) (expansions : List Expansion) :
    Option (List Symbol) :=
  expansions.foldlM (fun s e => e.expandLeftmost? g s) symbols

variable {g : Grammar} {s t : List Symbol} {e : Expansion} {es fs : List Expansion}

@[simp]
theorem replay?_nil : g.replay? s [] = some s := rfl

@[simp]
theorem replay?_cons :
    g.replay? s (e :: es) = (e.expandLeftmost? g s).bind fun t => g.replay? t es := rfl

theorem replay?_append :
    g.replay? s (es ++ fs) = (g.replay? s es).bind fun t => g.replay? t fs := by
  simp [replay?, List.foldlM_append]

end Grammar

end RegLang
