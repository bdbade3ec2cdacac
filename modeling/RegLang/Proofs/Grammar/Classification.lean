import RegLang.Grammar.Classification
import RegLang.Proofs.Grammar.Derivation

/-!
This module contains what the checks of the levels of the hierarchy say about the productions of a
grammar, and that a grammar can be treated as one of its own level and of every level below.
-/

namespace RegLang

theorem Classification.satisfies_of_le_mostSpecific {c : Classification} {t : ChomskyType}
    (hu : c.unrestricted = true) (hf : c.contextFree = true) (h : t ≤ c.mostSpecific) :
    c.satisfies t = true := by
  rcases c with ⟨u, s, f, r⟩
  cases t with
  | unrestricted => exact hu
  | contextSensitive =>
    -- With neither check passed the most restrictive level would be the unrestricted one.
    cases s with
    | true => rfl
    | false =>
      cases r with
      | true => rfl
      | false => exact absurd h (by decide +revert)
  | contextFree => exact hf
  | regular =>
    cases r with
    | true => rfl
    | false => exact absurd h (by decide +revert)

namespace Grammar

variable {g : Grammar} {A : Char} {p : Production}

theorem startRecurs_iff :
    g.startRecurs = true ↔
      ∃ A p, p ∈ g.productionsFor A ∧ .nonTerminal g.start ∈ p.symbols := by
  unfold startRecurs Production.contains
  simp only [List.any_eq_true, Prod.exists, mem_rules, decide_eq_true_eq]

theorem isRegularRule_iff :
    g.isRegularRule A p = true ↔
      (∃ a, p = .letter a) ∨ (∃ a B, p = .step a B) ∨ p = .epsilon ∧ A = g.start := by
  constructor
  · intro h
    have hs : p.shape ≠ .other := by
      intro hs
      simp [isRegularRule, hs] at h
    rcases Production.exists_of_shape_ne_other hs with hp | hp | hp
    · subst hp
      exact .inr (.inr ⟨rfl, beq_iff_eq.mp h⟩)
    · exact .inl hp
    · exact .inr (.inl hp)
  · intro h
    rcases h with ⟨a, hp⟩ | ⟨a, B, hp⟩ | ⟨hp, hA⟩
    · rw [hp]
      rfl
    · rw [hp]
      rfl
    · rw [hp]
      exact beq_iff_eq.mpr hA

theorem regular_classification_iff :
    g.classification.regular = true ↔ ∀ A p, p ∈ g.productionsFor A →
      (∃ a, p = .letter a) ∨ (∃ a B, p = .step a B) ∨ p = .epsilon ∧ A = g.start := by
  unfold classification
  simp only [List.all_eq_true, Prod.forall, mem_rules, isRegularRule_iff]

theorem contextSensitive_classification_iff :
    g.classification.contextSensitive = true ↔ ∀ A, .epsilon ∈ g.productionsFor A →
      A = g.start ∧ ∀ B p, p ∈ g.productionsFor B → ¬ .nonTerminal g.start ∈ p.symbols := by
  have hstart : g.startRecurs = false ↔
      ∀ B p, p ∈ g.productionsFor B → ¬ .nonTerminal g.start ∈ p.symbols := by
    rw [← Bool.not_eq_true, startRecurs_iff]
    simp only [not_exists, not_and]
  unfold classification
  simp only [List.all_eq_true, Prod.forall, mem_rules, Bool.or_eq_true, Bool.and_eq_true,
    Bool.not_eq_true', beq_iff_eq, hstart]
  constructor
  · intro h A hA
    exact (h A .epsilon hA).resolve_left nofun
  · intro h A p hp
    cases he : p.isEmpty with
    | false => exact .inl rfl
    | true => exact .inr (h A (Production.isEmpty_iff.mp he ▸ hp))

theorem classify_eq :
    g.classify =
      if g.classification.regular then .regular
      else if g.classification.contextSensitive then .contextFree
      else .unrestricted := by
  unfold classify Classification.mostSpecific
  have hf : g.classification.contextFree = true := rfl
  rw [hf, Bool.and_true]
  cases g.classification.contextSensitive with
  | true => rfl
  | false => rfl

theorem classify_eq_regular_iff : g.classify = .regular ↔ g.classification.regular = true := by
  rw [classify_eq]
  cases g.classification.regular <;> cases g.classification.contextSensitive <;> simp

theorem classify_eq_unrestricted_iff :
    g.classify = .unrestricted ↔
      ¬ g.classification.regular = true ∧ ¬ g.classification.contextSensitive = true := by
  rw [classify_eq]
  cases g.classification.regular <;> cases g.classification.contextSensitive <;> simp

/--
A grammar is regular if its productions have the shapes `a` and `aB` and the start symbol alone can
vanish. It is context-sensitive if nothing can vanish, or the start symbol alone can and it does not
come back. A regular grammar is of the highest level, any other context-sensitive one counts as
context-free, and a grammar can be treated as one of any level up to its own.
-/
theorem classification_iff_and_satisfies_of_le_classify (g : Grammar) :
    (g.classification.regular = true ↔ ∀ A p, p ∈ g.productionsFor A →
      (∃ a, p = .letter a) ∨ (∃ a B, p = .step a B) ∨ p = .epsilon ∧ A = g.start) ∧
    (g.classification.contextSensitive = true ↔
      (∀ A, ¬ .epsilon ∈ g.productionsFor A) ∨
        (∀ A, .epsilon ∈ g.productionsFor A → A = g.start) ∧
          ∀ A p, p ∈ g.productionsFor A → ¬ .nonTerminal g.start ∈ p.symbols) ∧
    (g.classify =
      if g.classification.regular then .regular
      else if g.classification.contextSensitive then .contextFree
      else .unrestricted) ∧
    ∀ t, t ≤ g.classify → g.classification.satisfies t = true := by
  refine ⟨regular_classification_iff, ?_, classify_eq, ?_⟩
  · rw [contextSensitive_classification_iff]
    constructor
    · intro h
      by_cases he : ∃ A, .epsilon ∈ g.productionsFor A
      · rcases he with ⟨A, hA⟩
        exact .inr ⟨fun B hB => (h B hB).1, (h A hA).2⟩
      · exact .inl (not_exists.mp he)
    · intro h A hA
      rcases h with h | ⟨hlhs, hrhs⟩
      · exact absurd hA (h A)
      · exact ⟨hlhs A hA, hrhs⟩
  · intro t ht
    exact Classification.satisfies_of_le_mostSpecific rfl rfl ht

def recurring : Grammar where
  nonTerminals := .ofList ['S', 'A']
  terminals := .ofList ['a', 'b']
  productions := .ofList
    [('S', [.step 'a' 'S', .step 'b' 'A', .epsilon]), ('A', [.letter 'a'])]
  start := 'S'

theorem classification_iff_and_satisfies_of_le_classify_recurring :
    recurring.IsValid ∧ recurring.classification.contextSensitive = false ∧
      recurring.classify = .regular ∧ .contextSensitive ≤ recurring.classify ∧
        recurring.classification.satisfies .contextSensitive = true := by
  rcases classification_iff_and_satisfies_of_le_classify recurring with ⟨_, _, hclassify, hle⟩
  have hvalid : recurring.IsValid := problem?_eq_none_iff.mp (by decide)
  have hs : ChomskyType.contextSensitive ≤ recurring.classify := by
    decide
  exact ⟨hvalid, by decide, hclassify.trans (by decide), hs, hle _ hs⟩

end Grammar

end RegLang
