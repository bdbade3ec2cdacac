import RegLang.FinMap.Lemmas
import RegLang.Grammar.Basic

/-!
This module contains the laws that the parts of a grammar keep. The check finds nothing wrong with a
grammar if and only if its parts agree with each other.
-/

namespace RegLang

namespace Grammar

variable {g h : Grammar}

def Declares (g : Grammar) : Symbol → Prop
  | .terminal c => c ∈ g.terminals
  | .nonTerminal c => c ∈ g.nonTerminals

structure IsValid (g : Grammar) : Prop where
  epsilon_not_mem_nonTerminals : ¬ epsilon ∈ g.nonTerminals
  epsilon_not_mem_terminals : ¬ epsilon ∈ g.terminals
  disjoint : ∀ c, c ∈ g.nonTerminals → ¬ c ∈ g.terminals
  start_mem : g.start ∈ g.nonTerminals
  lhs_mem : ∀ A ps, g.productions.get? A = some ps → A ∈ g.nonTerminals
  declares : ∀ A p s, p ∈ g.productionsFor A → s ∈ p.symbols → g.Declares s

theorem mem_productionsFor {A : Char} {p : Production} :
    p ∈ g.productionsFor A ↔ ∃ ps, g.productions.get? A = some ps ∧ p ∈ ps := by
  unfold productionsFor
  cases g.productions.get? A <;> simp

theorem mem_rules {A : Char} {p : Production} : (A, p) ∈ g.rules ↔ p ∈ g.productionsFor A := by
  simp only [rules, List.mem_flatMap, List.mem_map, Prod.exists, FinMap.mem_entries,
    Prod.mk.injEq, mem_productionsFor]
  constructor
  · rintro ⟨_, ps, h, _, hp, rfl, rfl⟩
    exact ⟨ps, h, hp⟩
  · rintro ⟨ps, h, hp⟩
    exact ⟨A, ps, h, p, hp, rfl, rfl⟩

theorem symbolProblem?_eq_none_iff {s : Symbol} : g.symbolProblem? s = none ↔ g.Declares s := by
  cases s <;> simp [symbolProblem?, Declares]

theorem entryProblem?_eq_none_iff {A : Char} {ps : List Production} :
    g.entryProblem? A ps = none ↔
      A ∈ g.nonTerminals ∧ ∀ p, p ∈ ps → ∀ s, s ∈ p.symbols → g.Declares s := by
  unfold entryProblem?
  split
  · simp_all only [FinSet.contains_iff, List.findSome?_eq_none_iff, List.mem_flatMap,
      symbolProblem?_eq_none_iff, true_and]
    constructor
    · exact fun h p hp s hs => h s ⟨p, hp, hs⟩
    · rintro h s ⟨p, hp, hs⟩
      exact h p hp s hs
  · simp_all

theorem findSome?_entryProblem?_eq_none_iff :
    (g.productions.entries.findSome? fun e => g.entryProblem? e.1 e.2) = none ↔
      (∀ A ps, g.productions.get? A = some ps → A ∈ g.nonTerminals) ∧
        ∀ A p s, p ∈ g.productionsFor A → s ∈ p.symbols → g.Declares s := by
  simp only [List.findSome?_eq_none_iff, Prod.forall, FinMap.mem_entries, entryProblem?_eq_none_iff,
    mem_productionsFor]
  constructor
  · intro h
    refine ⟨fun A ps hA => (h A ps hA).1, ?_⟩
    rintro A p s ⟨ps, hA, hp⟩ hs
    exact (h A ps hA).2 p hp s hs
  · rintro ⟨hl, hd⟩ A ps hA
    exact ⟨hl A ps hA, fun p hp s hs => hd A p s ⟨ps, hA, hp⟩ hs⟩

theorem problem?_eq_none_iff : g.problem? = none ↔ g.IsValid := by
  unfold problem?
  split
  · rename_i he
    simp only [reduceCtorEq, false_iff]
    rw [Bool.or_eq_true, FinSet.contains_iff, FinSet.contains_iff] at he
    exact fun hg => he.elim hg.epsilon_not_mem_nonTerminals hg.epsilon_not_mem_terminals
  · rename_i he
    rw [Bool.or_eq_true, FinSet.contains_iff, FinSet.contains_iff, not_or] at he
    split
    · rename_i c hc
      simp only [reduceCtorEq, false_iff]
      exact fun hg => hg.disjoint c (List.mem_of_find?_eq_some hc)
        (FinSet.contains_iff.mp (List.find?_some hc))
    · rename_i hd
      simp only [FinSet.find?_eq_none_iff, FinSet.contains_iff] at hd
      split
      · rename_i hs
        rw [findSome?_entryProblem?_eq_none_iff]
        exact ⟨fun h => ⟨he.1, he.2, hd, FinSet.contains_iff.mp hs, h.1, h.2⟩,
          fun hg => ⟨hg.lhs_mem, hg.declares⟩⟩
      · rename_i hs
        simp only [reduceCtorEq, false_iff]
        exact fun hg => hs (FinSet.contains_iff.mpr hg.start_mem)

theorem checked_eq_ok_iff : g.checked = .ok h ↔ g.IsValid ∧ h = g := by
  rw [← problem?_eq_none_iff, checked]
  cases g.problem? <;> simp [eq_comm]

theorem IsValid.checked_eq (hg : g.IsValid) : g.checked = .ok g :=
  checked_eq_ok_iff.mpr ⟨hg, rfl⟩

theorem isValid_of_checked (h' : g.checked = .ok h) : h.IsValid := by
  rcases checked_eq_ok_iff.mp h' with ⟨hg, e⟩
  rw [e]
  exact hg

theorem IsValid.withMaxDepth (hg : g.IsValid) (depth : Nat) : (g.withMaxDepth depth).IsValid where
  epsilon_not_mem_nonTerminals := hg.epsilon_not_mem_nonTerminals
  epsilon_not_mem_terminals := hg.epsilon_not_mem_terminals
  disjoint := hg.disjoint
  start_mem := hg.start_mem
  lhs_mem := hg.lhs_mem
  declares A p s hp hs := by
    have h := hg.declares A p s hp hs
    cases s <;> exact h

end Grammar

end RegLang
