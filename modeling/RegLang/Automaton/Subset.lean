import RegLang.Automaton.Basic
import RegLang.Event

/-!
This module contains the subset construction: the deterministic automaton whose states are the
sets of states that an automaton can be in. The sets are found breadth first, from the set of the
initial state alone.
-/

namespace RegLang

namespace Automaton

variable {σ : Type} [Ordered σ]

structure Visit (σ : Type) [Ordered σ] where
  state : FinSet σ
  moves : List (Char × FinSet σ)

structure Exploration (σ : Type) [Ordered σ] where
  /-- The sets to look at next, some of them perhaps for a second time. -/
  queue : List (FinSet σ)
  processed : FinSet (FinSet σ)
  visits : List (Visit σ)

/--
What follows a set of states. The empty set follows only if the sink is kept.
-/
def visit (A : Automaton σ) (keepSink : Bool) (state : FinSet σ) : Visit σ where
  state := state
  moves := A.alphabet.toList.filterMap fun symbol =>
    let next := A.step state symbol
    if next.isEmpty && !keepSink then none else some (symbol, next)

namespace Exploration

def start (A : Automaton σ) : Exploration σ := ⟨[.singleton A.initial], .empty, []⟩

def step (A : Automaton σ) (keepSink : Bool) (e : Exploration σ) : Exploration σ :=
  match e.queue with
  | [] => e
  | state :: queue =>
    if e.processed.contains state then
      { e with queue := queue }
    else
      let visit := A.visit keepSink state
      let processed := e.processed.insert state
      { queue := queue ++ (visit.moves.map Prod.snd).filter fun next => !processed.contains next
        processed := processed
        visits := e.visits ++ [visit] }

def run (A : Automaton σ) (keepSink : Bool) : (fuel : Nat) → Exploration σ → Exploration σ
  | 0, e => e
  | fuel + 1, e => if e.queue.isEmpty then e else run A keepSink fuel (step A keepSink e)

end Exploration

/--
The completed construction. Each of the at most `2 ^ n` sets of `n` states is visited once and
puts one set per symbol into the queue, so the steps suffice.
-/
def explore (A : Automaton σ) (keepSink : Bool) : Exploration σ :=
  .run A keepSink (1 + A.alphabet.size <<< A.states.size) (.start A)

def ofExploration (A : Automaton σ) (e : Exploration σ) : Automaton (FinSet σ) :=
  pruned
    { states := e.processed
      alphabet := A.alphabet
      transitions := .ofRows (e.visits.map fun v => (v.state, v.moves.map fun m => (m.1, [m.2])))
      initial := .singleton A.initial
      finals := e.processed.filter fun state => state.any A.isFinal }

def toDfa (A : Automaton σ) : Automaton (FinSet σ) := A.ofExploration (A.explore false)

def toCompleteDfa (A : Automaton σ) : Automaton (FinSet σ) := A.ofExploration (A.explore true)

variable [ToString σ]

namespace Visit

def events (A : Automaton σ) (v : Visit σ) : List Event :=
  .subsetDiscovered (toString v.state) (v.state.any A.isFinal) ::
    v.moves.map fun m => .subsetTransition (toString v.state) m.1 (toString m.2)

end Visit

def subsetEvents (A : Automaton σ) : List Event := (A.explore false).visits.flatMap (Visit.events A)

end Automaton

end RegLang
