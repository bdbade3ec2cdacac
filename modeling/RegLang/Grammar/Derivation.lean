import RegLang.Grammar.Basic

/-!
This module contains the language of a grammar: the strings that can be derived from its start
symbol by replacing non-terminals one at a time.
-/

namespace RegLang

def Symbol.ofWord (word : List Char) : List Symbol := word.map .terminal

namespace Grammar

variable {g : Grammar} {s t u : List Symbol}

inductive Step (g : Grammar) : List Symbol → List Symbol → Prop where
  | apply {lhs : Char} {p : Production} (before after : List Symbol) :
    p ∈ g.productionsFor lhs →
      Step g (before ++ .nonTerminal lhs :: after) (before ++ (p.symbols ++ after))

inductive Derives (g : Grammar) : List Symbol → List Symbol → Prop where
  | refl (s : List Symbol) : Derives g s s
  | head {s t u : List Symbol} : g.Step s t → Derives g t u → Derives g s u

def Generates (g : Grammar) (word : List Char) : Prop :=
  g.Derives [.nonTerminal g.start] (Symbol.ofWord word)

def IsRightLinear (g : Grammar) : Prop :=
  ∀ lhs p, p ∈ g.productionsFor lhs → p.shape ≠ .other

def rightLinearPart (g : Grammar) : Grammar :=
  { g with
    productions := g.productions.filterMap fun _ ps => some (ps.filter fun p => p.shape ≠ .other) }

theorem Derives.trans (h : g.Derives s t) (h' : g.Derives t u) : g.Derives s u := by
  induction h with
  | refl => exact h'
  | head e _ ih => exact .head e (ih h')

theorem Step.append_left (u : List Symbol) (h : g.Step s t) : g.Step (u ++ s) (u ++ t) := by
  cases h with
  | apply before after hp => simpa using Step.apply (u ++ before) after hp

theorem Step.append_right (u : List Symbol) (h : g.Step s t) : g.Step (s ++ u) (t ++ u) := by
  cases h with
  | apply before after hp => simpa using Step.apply before (after ++ u) hp

theorem Derives.append_left (u : List Symbol) (h : g.Derives s t) :
    g.Derives (u ++ s) (u ++ t) := by
  induction h with
  | refl => exact .refl _
  | head e _ ih => exact .head (e.append_left u) ih

theorem Derives.append_right (u : List Symbol) (h : g.Derives s t) :
    g.Derives (s ++ u) (t ++ u) := by
  induction h with
  | refl => exact .refl _
  | head e _ ih => exact .head (e.append_right u) ih

end Grammar

end RegLang
