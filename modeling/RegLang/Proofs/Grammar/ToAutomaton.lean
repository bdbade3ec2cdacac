import RegLang.Grammar.Classification
import RegLang.Grammar.ToAutomaton
import RegLang.Grammar.Validity
import RegLang.Proofs.Automaton.Edge
import RegLang.Proofs.Automaton.Membership
import RegLang.Proofs.Grammar.Derivation

/-!
This module contains the states, the edges, the validity and the language of the automaton that a
grammar is converted to.
-/

namespace RegLang

namespace Grammar

variable {g : Grammar} {A : Char} {a : Char} {p q : String} {w : List Char}

theorem acceptingState_ne_toString : acceptingState ≠ A.toString := by
  intro h
  have hl := congrArg String.toList h
  rw [Char.toString, String.toList_singleton] at hl
  simp [acceptingState] at hl

theorem toString_inj {B : Char} : A.toString = B.toString ↔ A = B := String.singleton_inj

theorem triple?_eq_some_iff {r : Production} :
    triple? A r = some (p, a, q) ↔
      p = A.toString ∧
        (r = .letter a ∧ q = acceptingState ∨ ∃ B, r = .step a B ∧ q = B.toString) := by
  rcases r with ⟨symbols⟩
  unfold triple? Production.shape Production.letter Production.step
  split <;> grind

theorem edge_toAutomaton :
    g.toAutomaton.Edge p a q ↔ ∃ A, p = A.toString ∧
      (.letter a ∈ g.productionsFor A ∧ q = acceptingState ∨
        ∃ B, .step a B ∈ g.productionsFor A ∧ q = B.toString) := by
  unfold Automaton.Edge toAutomaton
  rw [Transitions.holds_ofTriples]
  simp only [List.mem_filterMap, Prod.exists, mem_rules, triple?_eq_some_iff]
  constructor
  · rintro ⟨A, r, hr, hp, h⟩
    refine ⟨A, hp, ?_⟩
    rcases h with ⟨e, hq⟩ | ⟨B, e, hq⟩
    · exact .inl ⟨e ▸ hr, hq⟩
    · exact .inr ⟨B, e ▸ hr, hq⟩
  · rintro ⟨A, hp, h⟩
    rcases h with ⟨hr, hq⟩ | ⟨B, hr, hq⟩
    · exact ⟨A, _, hr, hp, .inl ⟨rfl, hq⟩⟩
    · exact ⟨A, _, hr, hp, .inr ⟨B, rfl, hq⟩⟩

theorem not_edge_acceptingState : ¬ g.toAutomaton.Edge acceptingState a q := by
  intro h
  rcases edge_toAutomaton.mp h with ⟨A, hA, _⟩
  exact acceptingState_ne_toString hA

theorem path_acceptingState_iff :
    g.toAutomaton.Path acceptingState w q ↔ w = [] ∧ q = acceptingState := by
  cases w with
  | nil => simp [eq_comm]
  | cons a w =>
    rw [Automaton.path_cons]
    constructor
    · rintro ⟨_, e, _⟩
      exact absurd e not_edge_acceptingState
    · intro h
      cases h.1

theorem mem_finals_toAutomaton :
    q ∈ g.toAutomaton.finals ↔
      q = acceptingState ∨ ∃ A, .epsilon ∈ g.productionsFor A ∧ q = A.toString := by
  simp only [toAutomaton, FinSet.mem_ofList, List.mem_cons, List.mem_map, List.mem_filter,
    Prod.exists, mem_rules, Production.isEmpty_iff]
  apply or_congr_right
  constructor
  · rintro ⟨A, r, ⟨hr, e⟩, hq⟩
    exact ⟨A, e ▸ hr, hq.symm⟩
  · rintro ⟨A, hr, hq⟩
    exact ⟨A, _, ⟨hr, rfl⟩, hq.symm⟩

theorem toString_mem_finals_toAutomaton :
    A.toString ∈ g.toAutomaton.finals ↔ .epsilon ∈ g.productionsFor A := by
  rw [mem_finals_toAutomaton]
  constructor
  · intro h
    rcases h with h | ⟨B, hB, h⟩
    · exact absurd h.symm acceptingState_ne_toString
    · rw [toString_inj.mp h]
      exact hB
  · intro h
    exact .inr ⟨A, h, rfl⟩

theorem mem_states_toAutomaton :
    q ∈ g.toAutomaton.states ↔ q = acceptingState ∨ ∃ A, A ∈ g.nonTerminals ∧ q = A.toString := by
  simp only [toAutomaton, FinSet.mem_ofList, List.mem_cons, List.mem_map, FinSet.mem_toList,
    eq_comm (a := q)]

theorem toString_mem_states_toAutomaton (h : A ∈ g.nonTerminals) :
    A.toString ∈ g.toAutomaton.states :=
  mem_states_toAutomaton.mpr (.inr ⟨A, h, rfl⟩)

theorem IsValid.mem_nonTerminals_of_mem_productionsFor (hg : g.IsValid) {p : Production}
    (hp : p ∈ g.productionsFor A) : A ∈ g.nonTerminals := by
  rcases mem_productionsFor.mp hp with ⟨ps, hps, _⟩
  exact hg.lhs_mem A ps hps

theorem IsValid.mem_of_edge_toAutomaton (hg : g.IsValid) (e : g.toAutomaton.Edge p a q) :
    p ∈ g.toAutomaton.states ∧ a ∈ g.terminals ∧ q ∈ g.toAutomaton.states := by
  rcases edge_toAutomaton.mp e with ⟨A, hA, hp⟩
  subst hA
  rcases hp with ⟨hp, hq⟩ | ⟨B, hp, hq⟩
  · subst hq
    exact ⟨toString_mem_states_toAutomaton (hg.mem_nonTerminals_of_mem_productionsFor hp),
      hg.declares A _ (.terminal a) hp List.mem_cons_self, mem_states_toAutomaton.mpr (.inl rfl)⟩
  · subst hq
    have hB : B ∈ g.nonTerminals :=
      hg.declares A _ (.nonTerminal B) hp (List.mem_cons_of_mem _ List.mem_cons_self)
    exact ⟨toString_mem_states_toAutomaton (hg.mem_nonTerminals_of_mem_productionsFor hp),
      hg.declares A _ (.terminal a) hp List.mem_cons_self, toString_mem_states_toAutomaton hB⟩

theorem IsValid.toAutomaton (hg : g.IsValid) : g.toAutomaton.IsValid := by
  apply Automaton.isValid_of_edges
  case hp => exact Transitions.isPruned_ofTriples
  case hε => exact hg.epsilon_not_mem_terminals
  case hi => exact toString_mem_states_toAutomaton hg.start_mem
  case hf =>
    intro q hq
    rcases mem_finals_toAutomaton.mp hq with hq | ⟨A, hp, hq⟩
    · exact mem_states_toAutomaton.mpr (.inl hq)
    · rw [hq]
      exact toString_mem_states_toAutomaton (hg.mem_nonTerminals_of_mem_productionsFor hp)
  case he =>
    intro p a q e
    exact hg.mem_of_edge_toAutomaton e

theorem leadsToFinal_acceptingState :
    g.toAutomaton.LeadsToFinal acceptingState w ↔ w = [] := by
  unfold Automaton.LeadsToFinal
  simp only [path_acceptingState_iff]
  constructor
  · rintro ⟨_, h, _⟩
    exact h.1
  · intro h
    exact ⟨_, ⟨h, rfl⟩, mem_finals_toAutomaton.mpr (.inl rfl)⟩

theorem leadsToFinal_toAutomaton_cons :
    g.toAutomaton.LeadsToFinal A.toString (a :: w) ↔
      w = [] ∧ .letter a ∈ g.productionsFor A ∨
        ∃ B, .step a B ∈ g.productionsFor A ∧ g.toAutomaton.LeadsToFinal B.toString w := by
  rw [Automaton.leadsToFinal_cons]
  constructor
  · rintro ⟨q, e, h⟩
    rcases edge_toAutomaton.mp e with ⟨A', hA, e⟩
    rw [← toString_inj.mp hA] at e
    rcases e with ⟨hp, hq⟩ | ⟨B, hp, hq⟩
    · rw [hq, leadsToFinal_acceptingState] at h
      exact .inl ⟨h, hp⟩
    · exact .inr ⟨B, hp, hq ▸ h⟩
  · intro h
    rcases h with ⟨hw, hp⟩ | ⟨B, hp, h⟩
    · exact ⟨_, edge_toAutomaton.mpr ⟨A, rfl, .inl ⟨hp, rfl⟩⟩, leadsToFinal_acceptingState.mpr hw⟩
    · exact ⟨_, edge_toAutomaton.mpr ⟨A, rfl, .inr ⟨B, hp, rfl⟩⟩, h⟩

theorem leadsToFinal_toAutomaton_iff_derives :
    g.toAutomaton.LeadsToFinal A.toString w ↔
      g.rightLinearPart.Derives [.nonTerminal A] (Symbol.ofWord w) := by
  have hg := isRightLinear_rightLinearPart (g := g)
  have hε {A : Char} :=
    mem_productionsFor_rightLinearPart_of_shape (g := g) (A := A) (p := .epsilon) nofun
  have hl {A a : Char} :=
    mem_productionsFor_rightLinearPart_of_shape (g := g) (A := A) (p := .letter a) nofun
  have hs {A a B : Char} :=
    mem_productionsFor_rightLinearPart_of_shape (g := g) (A := A) (p := .step a B) nofun
  -- Both sides follow one recursion over the word.
  induction w generalizing A with
  | nil => rw [Automaton.leadsToFinal_nil, toString_mem_finals_toAutomaton, hg.derives_nil_iff, hε]
  | cons a w ih => simp only [leadsToFinal_toAutomaton_cons, hg.derives_cons_iff, hl, hs, ih]

theorem IsRightLinear.accepts_toAutomaton_iff_generates (hg : g.IsRightLinear) :
    g.toAutomaton.accepts w = true ↔ g.Generates w := by
  have h : g.toAutomaton.accepts w = true ↔ g.rightLinearPart.Generates w :=
    Automaton.accepts_iff_leadsToFinal.trans leadsToFinal_toAutomaton_iff_derives
  rw [h, hg.rightLinearPart_eq]

theorem isRightLinear_of_regular (h : g.classification.regular = true) : g.IsRightLinear := by
  intro A p hp e
  have hr := List.all_eq_true.mp h (A, p) (mem_rules.mpr hp)
  simp [isRegularRule, e] at hr

theorem accepts_toAutomaton (g : Grammar) (w : List Char) :
    (g.toAutomaton.accepts w = true ↔ g.rightLinearPart.Generates w) ∧
      (g.classification.regular = true → (g.toAutomaton.accepts w = true ↔ g.Generates w)) := by
  have h : g.toAutomaton.accepts w = true ↔ g.rightLinearPart.Generates w :=
    Automaton.accepts_iff_leadsToFinal.trans leadsToFinal_toAutomaton_iff_derives
  refine ⟨h, ?_⟩
  intro hr
  rw [h, (isRightLinear_of_regular hr).rightLinearPart_eq]

def alternating : Grammar where
  nonTerminals := .ofList ['S', 'B']
  terminals := .ofList ['a', 'b']
  productions := .ofList
    [('S', [.step 'a' 'B', .epsilon]), ('B', [.step 'b' 'S', .letter 'b'])]
  start := 'S'

theorem checked_alternating : alternating.checked = .ok alternating := by
  decide

theorem isValid_alternating : alternating.IsValid := isValid_of_checked checked_alternating

theorem accepts_toAutomaton_alternating :
    alternating.classification.regular = true ∧
      (alternating.toAutomaton.accepts ['a', 'b'] = true ↔
        alternating.rightLinearPart.Generates ['a', 'b']) ∧
      (alternating.toAutomaton.accepts ['a', 'b'] = true ↔ alternating.Generates ['a', 'b']) :=
  ⟨by decide, (accepts_toAutomaton alternating _).1,
    (accepts_toAutomaton alternating _).2 (by decide)⟩

end Grammar

end RegLang
