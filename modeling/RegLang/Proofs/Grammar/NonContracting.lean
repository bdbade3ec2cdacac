import Mathlib.Data.List.Chain
import RegLang.Proofs.Grammar.Classification

/-!
This module contains what the check of the context-sensitive level means for derivations: except for
the single step from the start symbol to nothing, no derivation from the start symbol makes a
sequence of symbols shorter.
-/

namespace RegLang

namespace Grammar

variable {g : Grammar} {A : Char} {p : Production} {s t : List Symbol} {forms : List (List Symbol)}

def IsLasting (g : Grammar) (symbols : List Symbol) : Prop :=
  ∀ A, .nonTerminal A ∈ symbols → ¬ .epsilon ∈ g.productionsFor A

theorem IsLasting.length_le (hs : g.IsLasting s) (h : g.Step s t) : s.length ≤ t.length := by
  cases h with
  | @apply A p before after hp =>
    have hpos : 0 < p.symbols.length := by
      apply List.length_pos_iff.mpr
      intro he
      apply hs A
      · apply List.mem_append_right
        apply List.mem_cons_self
      · exact Production.symbols_eq_nil_iff.mp he ▸ hp
    simp only [List.length_append, List.length_cons]
    omega

section ContextSensitive

variable (hg : g.classification.contextSensitive = true)

include hg

theorem isLasting_symbols (hp : p ∈ g.productionsFor A) : g.IsLasting p.symbols := by
  intro B hB hε
  -- Only the start symbol can vanish, and it is on no right-hand side then.
  rcases contextSensitive_classification_iff.mp hg B hε with ⟨e, hrhs⟩
  subst e
  exact hrhs A p hp hB

theorem IsLasting.step (hs : g.IsLasting s) (h : g.Step s t) : g.IsLasting t := by
  cases h with
  | @apply A p before after hp =>
    intro B hB
    rcases List.mem_append.mp hB with hB | hB
    · apply hs
      apply List.mem_append_left
      exact hB
    · rcases List.mem_append.mp hB with hB | hB
      · exact isLasting_symbols hg hp B hB
      · apply hs
        apply List.mem_append_right
        apply List.mem_cons_of_mem
        exact hB

theorem IsLasting.isChain_length_le (hs : g.IsLasting s) (h : (s :: forms).IsChain g.Step) :
    (s :: forms).IsChain fun t u => t.length ≤ u.length := by
  induction forms generalizing s with
  | nil => exact .singleton s
  | cons t forms ih =>
    rw [List.isChain_cons_cons] at h ⊢
    constructor
    · exact hs.length_le h.1
    · exact ih (hs.step hg h.1) h.2

theorem IsLasting.length_le_of_derives (hs : g.IsLasting s) (h : g.Derives s t) :
    s.length ≤ t.length := by
  induction h with
  | refl => exact Nat.le_refl _
  | head e _ ih =>
    apply Nat.le_trans
    · exact hs.length_le e
    · exact ih (hs.step hg e)

theorem eq_singleton_nil_or_isChain_length_le
    (h : ([.nonTerminal g.start] :: forms).IsChain g.Step) :
    forms = [[]] ∨
      ([.nonTerminal g.start] :: forms).IsChain fun s t => s.length ≤ t.length := by
  cases forms with
  | nil => exact .inr (.singleton _)
  | cons t forms =>
    rw [List.isChain_cons_cons] at h
    by_cases ht : t = []
    · left
      subst ht
      cases forms with
      | nil => rfl
      | cons u forms =>
        rw [List.isChain_cons_cons] at h
        exact absurd h.2.1 not_step_nil
    · right
      rcases step_nonTerminal_iff.mp h.1 with ⟨p, hp, hsymbols⟩
      rw [List.isChain_cons_cons]
      constructor
      · exact List.length_pos_iff.mpr ht
      · subst hsymbols
        exact (isLasting_symbols hg hp).isChain_length_le hg h.2

theorem generates_nil_iff : g.Generates [] ↔ .epsilon ∈ g.productionsFor g.start := by
  unfold Generates
  rw [derives_nonTerminal_ofWord_iff]
  constructor
  · rintro ⟨p, hp, h⟩
    have hle := (isLasting_symbols hg hp).length_le_of_derives hg h
    have hnil : p.symbols = [] := List.eq_nil_of_length_eq_zero (Nat.le_zero.mp hle)
    exact Production.symbols_eq_nil_iff.mp hnil ▸ hp
  · intro hp
    exact ⟨_, hp, .refl []⟩

end ContextSensitive

/--
A derivation from the start symbol of a context-sensitive grammar is the single step to nothing, or
none of its steps makes the sequence of symbols shorter. The empty string therefore belongs to the
language only if the start symbol has the production `ε`.
-/
theorem isChain_length_le_and_generates_nil_iff
    (hg : g.classification.contextSensitive = true) :
    (∀ forms, ([.nonTerminal g.start] :: forms).IsChain g.Step → forms = [[]] ∨
      ([.nonTerminal g.start] :: forms).IsChain fun s t => s.length ≤ t.length) ∧
    (g.Generates [] ↔ .epsilon ∈ g.productionsFor g.start) := by
  constructor
  · intro forms h
    exact eq_singleton_nil_or_isChain_length_le hg h
  · exact generates_nil_iff hg

def balanced : Grammar where
  nonTerminals := .ofList ['S', 'T']
  terminals := .ofList ['a', 'b']
  productions := .ofList
    [('S', [.epsilon, ⟨[.nonTerminal 'T', .nonTerminal 'T']⟩]),
     ('T', [⟨[.terminal 'a', .nonTerminal 'T', .terminal 'b']⟩, .letter 'a'])]
  start := 'S'

theorem isChain_length_le_and_generates_nil_iff_balanced :
    let forms : List (List Symbol) :=
      [[.nonTerminal 'T', .nonTerminal 'T'], [.nonTerminal 'T', .terminal 'a']]
    balanced.IsValid ∧ balanced.classification.contextSensitive = true ∧
      ([.nonTerminal balanced.start] :: forms).IsChain balanced.Step ∧
      (([.nonTerminal balanced.start] :: forms).IsChain fun s t => s.length ≤ t.length) ∧
      balanced.Generates [] := by
  intro forms
  have hvalid : balanced.IsValid := problem?_eq_none_iff.mp (by decide)
  have hg : balanced.classification.contextSensitive = true := by
    decide
  rcases isChain_length_le_and_generates_nil_iff hg with ⟨hchain, hnil⟩
  have hstart : ⟨[.nonTerminal 'T', .nonTerminal 'T']⟩ ∈ balanced.productionsFor 'S' := by
    decide
  have hletter : .letter 'a' ∈ balanced.productionsFor 'T' := by
    decide
  have hforms : ([.nonTerminal balanced.start] :: forms).IsChain balanced.Step := by
    rw [List.isChain_cons_cons, List.isChain_cons_cons]
    exact ⟨.apply [] [] hstart, .apply [.nonTerminal 'T'] [] hletter, .singleton _⟩
  have hne : forms ≠ [[]] := by
    decide
  exact ⟨hvalid, hg, hforms, (hchain forms hforms).resolve_left hne, hnil.mpr (by decide)⟩

end Grammar

end RegLang
