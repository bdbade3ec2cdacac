import RegLang.FinMap.Basic

/-!
This module contains transition relations: which states can follow a state on a symbol.
-/

namespace RegLang

abbrev Transitions (σ : Type) [Ordered σ] := FinMap σ (FinMap Char (FinSet σ))

namespace Transitions

variable {σ : Type} [Ordered σ]

/--
Add successors of one state. Rows and cells that are named are there afterwards, if only as empty
ones.
-/
def addRow (t : Transitions σ) (source : σ) (cells : List (Char × List σ)) : Transitions σ :=
  t.update source fun row =>
    cells.foldl (fun r cell => r.update cell.1 fun targets =>
      (FinSet.ofList cell.2).union (targets.getD .empty)) (row.getD .empty)

/--
The relation that a list of rows describes; what is said of one state and symbol in several places
is united.
-/
def ofRows (rows : List (σ × List (Char × List σ))) : Transitions σ :=
  rows.foldl (fun t row => t.addRow row.1 row.2) .empty

def ofTriples (triples : List (σ × Char × σ)) : Transitions σ :=
  ofRows (triples.map fun t => (t.1, [(t.2.1, [t.2.2])]))

def pruned (t : Transitions σ) : Transitions σ :=
  t.filterMap fun _ row =>
    let row := row.filterMap fun _ targets => if targets.isEmpty then none else some targets
    if row.isEmpty then none else some row

def triples (t : Transitions σ) : List (σ × Char × σ) :=
  t.entries.flatMap fun row => row.2.entries.flatMap fun cell => cell.2.toList.map
    fun target => (row.1, cell.1, target)

def successors? (t : Transitions σ) (state : σ) (symbol : Char) : Option (FinSet σ) :=
  (t.get? state).bind fun row => row.get? symbol

end Transitions

end RegLang
