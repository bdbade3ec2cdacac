import RegLang.Event
import RegLang.Grammar.Basic
import RegLang.WordSource

/-!
This module contains the generation of strings: non-terminals are expanded leftmost first by
productions that a source of random words chooses.
-/

namespace RegLang

namespace Grammar

inductive Expansion where
  | applied (nonTerminal : Char) (production : Production)
  | deadEnd (nonTerminal : Char)
  deriving Repr, DecidableEq

structure Generation where
  expansions : List Expansion
  text : List Char
  source : WordSource
  /-- Whether the depth limit was kept; otherwise nothing follows the last expansion. -/
  completed : Bool
  deriving Repr, DecidableEq

namespace Generation

def ofSymbols (expand : Char → WordSource → Generation) :
    List Symbol → WordSource → Generation
  | [], source => ⟨[], [], source, true⟩
  | .terminal c :: symbols, source =>
    let rest := ofSymbols expand symbols source
    { rest with text := c :: rest.text }
  | .nonTerminal c :: symbols, source =>
    let first := expand c source
    if first.completed then
      let rest := ofSymbols expand symbols first.source
      { rest with
        expansions := first.expansions ++ rest.expansions
        text := first.text ++ rest.text }
    else
      first

end Generation

def expand (g : Grammar) : (depth : Nat) → Char → WordSource → Generation
  | 0, _, source => ⟨[], [], source, false⟩
  | depth + 1, nonTerminal, source =>
    match source.choose (g.productionsFor nonTerminal) with
    | (none, source) => ⟨[.deadEnd nonTerminal], [], source, true⟩
    | (some production, source) =>
      let rest := Generation.ofSymbols (g.expand depth) production.symbols source
      { rest with expansions := .applied nonTerminal production :: rest.expansions }

def generation (g : Grammar) (source : WordSource) : Generation :=
  g.expand g.maxDepth g.start source

def generate (g : Grammar) (source : WordSource) : Except Error (List Char) :=
  let result := g.generation source
  if result.completed then .ok result.text else .error (.depthExceeded g.maxDepth)

namespace Expansion

def event : Expansion → Event
  | applied nonTerminal production => .productionApplied nonTerminal (toString production)
  | deadEnd nonTerminal => .deadEnd nonTerminal

end Expansion

def generationEvents (g : Grammar) (result : Generation) : List Event :=
  .generationStarted g.start :: result.expansions.map Expansion.event
    ++ if result.completed then [.generated (String.ofList result.text)] else []

end Grammar

end RegLang
