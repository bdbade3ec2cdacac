import RegLang.FinMap.Lemmas
import RegLang.Grammar.Derivation
import RegLang.Grammar.Validity

/-!
This module contains how derivations come apart: a derivation from several symbols is one from each
of them, and a derivation from a non-terminal begins with one of its productions. For a right-linear
grammar this leaves a recursion over the derived string.
-/

namespace RegLang

theorem Symbol.ofWord_eq_append_iff {w : List Char} {s t : List Symbol} :
    ofWord w = s ++ t ↔ ∃ u v, w = u ++ v ∧ ofWord u = s ∧ ofWord v = t :=
  List.map_eq_append_iff

theorem Symbol.ofWord_eq_singleton_terminal_iff {w : List Char} {a : Char} :
    ofWord w = [.terminal a] ↔ w = [a] := by
  constructor
  · intro h
    rcases List.map_eq_singleton_iff.mp h with ⟨b, hw, hb⟩
    cases hb
    exact hw
  · intro h
    rw [h]
    rfl

theorem Production.isEmpty_iff {p : Production} : p.isEmpty = true ↔ p = epsilon := by
  rcases p with ⟨symbols⟩
  simp [isEmpty, epsilon]

theorem Production.symbols_eq_nil_iff {p : Production} : p.symbols = [] ↔ p = epsilon := by
  rw [← isEmpty_iff, isEmpty, List.isEmpty_iff]

theorem Production.exists_of_shape_ne_other {p : Production} (h : p.shape ≠ .other) :
    p = epsilon ∨ (∃ a, p = letter a) ∨ ∃ a B, p = step a B := by
  rcases p with ⟨symbols⟩
  unfold shape at h
  split at h
  · rename_i hs
    exact .inl (congrArg mk hs)
  · rename_i a hs
    exact .inr (.inl ⟨a, congrArg mk hs⟩)
  · rename_i a B hs
    exact .inr (.inr ⟨a, B, congrArg mk hs⟩)
  · exact absurd rfl h

namespace Grammar

variable {g : Grammar} {s t u : List Symbol} {A : Char} {a : Char} {w : List Char}

theorem not_step_nil : ¬ g.Step [] u := by
  intro h
  generalize hs : ([] : List Symbol) = s at h
  cases h with
  | apply before after _ =>
    exact List.append_ne_nil_of_right_ne_nil before (List.cons_ne_nil _ after) hs.symm

theorem not_step_terminal : ¬ g.Step [.terminal a] u := by
  intro h
  generalize hs : [Symbol.terminal a] = s at h
  cases h with
  | apply before after _ => cases before <;> simp at hs

theorem step_nonTerminal_iff :
    g.Step [.nonTerminal A] u ↔ ∃ p, p ∈ g.productionsFor A ∧ u = p.symbols := by
  constructor
  · intro h
    generalize hs : [Symbol.nonTerminal A] = s at h
    cases h with
    | @apply lhs p before after hp =>
      cases before with
      | nil =>
        injection hs with hA hafter
        injection hA with hA
        subst hA hafter
        exact ⟨p, hp, List.append_nil p.symbols⟩
      | cons b before => simp at hs
  · rintro ⟨p, hp, e⟩
    rw [e]
    simpa using Step.apply [] [] hp

theorem Step.of_append (h : g.Step (s ++ t) u) :
    (∃ s', g.Step s s' ∧ u = s' ++ t) ∨ ∃ t', g.Step t t' ∧ u = s ++ t' := by
  generalize hst : s ++ t = r at h
  cases h with
  | @apply lhs p before after hp =>
    -- The replaced non-terminal belongs to one of the two parts.
    rcases List.append_eq_append_iff.mp hst with ⟨m, hb, ht⟩ | ⟨m, hs, hm⟩
    · subst hb ht
      right
      exact ⟨_, .apply m after hp, List.append_assoc s m _⟩
    · cases m with
      | nil =>
        rw [List.nil_append] at hm
        rw [List.append_nil] at hs
        subst hs hm
        right
        exact ⟨_, .apply [] after hp, rfl⟩
      | cons b m =>
        rw [List.cons_append] at hm
        injection hm with hb hm
        subst hs hb hm
        left
        refine ⟨_, .apply before m hp, ?_⟩
        rw [List.append_assoc, List.append_assoc]

theorem derives_nil_iff : g.Derives [] u ↔ u = [] := by
  constructor
  · intro h
    cases h with
    | refl => rfl
    | head e _ => exact absurd e not_step_nil
  · intro h
    rw [h]
    exact .refl []

theorem derives_terminal_iff : g.Derives [.terminal a] u ↔ u = [.terminal a] := by
  constructor
  · intro h
    cases h with
    | refl => rfl
    | head e _ => exact absurd e not_step_terminal
  · intro h
    rw [h]
    exact .refl _

theorem derives_append_iff :
    g.Derives (s ++ t) u ↔ ∃ s' t', u = s' ++ t' ∧ g.Derives s s' ∧ g.Derives t t' := by
  constructor
  · intro h
    generalize hr : s ++ t = r at h
    induction h generalizing s t with
    | refl => exact ⟨s, t, hr.symm, .refl s, .refl t⟩
    | head e _ ih =>
      rw [← hr] at e
      rcases e.of_append with ⟨s', es, hs⟩ | ⟨t', et, ht⟩
      · rcases ih hs.symm with ⟨s'', t'', hu, ds, dt⟩
        exact ⟨s'', t'', hu, .head es ds, dt⟩
      · rcases ih ht.symm with ⟨s'', t'', hu, ds, dt⟩
        exact ⟨s'', t'', hu, ds, .head et dt⟩
  · rintro ⟨s', t', hu, ds, dt⟩
    rw [hu]
    exact (ds.append_right t).trans (dt.append_left s')

theorem derives_nonTerminal_iff :
    g.Derives [.nonTerminal A] u ↔
      u = [.nonTerminal A] ∨ ∃ p, p ∈ g.productionsFor A ∧ g.Derives p.symbols u := by
  constructor
  · intro h
    cases h with
    | refl => exact .inl rfl
    | head e d =>
      rcases step_nonTerminal_iff.mp e with ⟨p, hp, hs⟩
      exact .inr ⟨p, hp, hs ▸ d⟩
  · intro h
    rcases h with h | ⟨p, hp, d⟩
    · rw [h]
      exact .refl _
    · exact .head (step_nonTerminal_iff.mpr ⟨p, hp, rfl⟩) d

theorem derives_terminal_cons_iff :
    g.Derives (.terminal a :: s) (Symbol.ofWord w) ↔
      ∃ v, w = a :: v ∧ g.Derives s (Symbol.ofWord v) := by
  rw [← List.singleton_append, derives_append_iff]
  simp only [derives_terminal_iff]
  constructor
  · rintro ⟨_, _, hw, hs, d⟩
    rcases Symbol.ofWord_eq_append_iff.mp hw with ⟨u, v, hw, hu, hv⟩
    rw [hs, Symbol.ofWord_eq_singleton_terminal_iff] at hu
    rw [hu] at hw
    exact ⟨v, hw, hv ▸ d⟩
  · rintro ⟨v, hw, d⟩
    exact ⟨_, _, by rw [hw]; rfl, rfl, d⟩

theorem derives_nonTerminal_ofWord_iff :
    g.Derives [.nonTerminal A] (Symbol.ofWord w) ↔
      ∃ p, p ∈ g.productionsFor A ∧ g.Derives p.symbols (Symbol.ofWord w) := by
  rw [derives_nonTerminal_iff]
  apply or_iff_right
  intro h
  rcases List.map_eq_singleton_iff.mp h with ⟨_, _, h⟩
  cases h

theorem derives_epsilon_iff :
    g.Derives Production.epsilon.symbols (Symbol.ofWord w) ↔ w = [] := by
  rw [Production.epsilon, derives_nil_iff]
  exact List.map_eq_nil_iff

theorem derives_letter_iff :
    g.Derives (Production.letter a).symbols (Symbol.ofWord w) ↔ w = [a] := by
  rw [Production.letter, derives_terminal_iff]
  exact Symbol.ofWord_eq_singleton_terminal_iff

theorem derives_step_iff {B : Char} :
    g.Derives (Production.step a B).symbols (Symbol.ofWord w) ↔
      ∃ v, w = a :: v ∧ g.Derives [.nonTerminal B] (Symbol.ofWord v) :=
  derives_terminal_cons_iff

namespace IsRightLinear

variable (hg : g.IsRightLinear)

include hg

theorem derives_nil_iff :
    g.Derives [.nonTerminal A] (Symbol.ofWord []) ↔ .epsilon ∈ g.productionsFor A := by
  rw [derives_nonTerminal_ofWord_iff]
  constructor
  · rintro ⟨p, hp, d⟩
    rcases Production.exists_of_shape_ne_other (hg A p hp) with e | ⟨a, e⟩ | ⟨a, B, e⟩
    · exact e ▸ hp
    · rw [e, derives_letter_iff] at d
      cases d
    · rw [e, derives_step_iff] at d
      rcases d with ⟨_, h, _⟩
      cases h
  · intro h
    exact ⟨_, h, derives_epsilon_iff.mpr rfl⟩

theorem derives_cons_iff :
    g.Derives [.nonTerminal A] (Symbol.ofWord (a :: w)) ↔
      w = [] ∧ .letter a ∈ g.productionsFor A ∨
        ∃ B, .step a B ∈ g.productionsFor A ∧ g.Derives [.nonTerminal B] (Symbol.ofWord w) := by
  rw [derives_nonTerminal_ofWord_iff]
  constructor
  · rintro ⟨p, hp, d⟩
    rcases Production.exists_of_shape_ne_other (hg A p hp) with e | ⟨b, e⟩ | ⟨b, B, e⟩
    · rw [e, derives_epsilon_iff] at d
      cases d
    · subst e
      rw [derives_letter_iff] at d
      cases d
      exact .inl ⟨rfl, hp⟩
    · subst e
      rw [derives_step_iff] at d
      rcases d with ⟨v, h, d⟩
      cases h
      exact .inr ⟨B, hp, d⟩
  · intro h
    rcases h with ⟨hw, hp⟩ | ⟨B, hp, d⟩
    · exact ⟨_, hp, derives_letter_iff.mpr (by rw [hw])⟩
    · exact ⟨_, hp, derives_step_iff.mpr ⟨w, rfl, d⟩⟩

theorem rightLinearPart_eq : g.rightLinearPart = g := by
  have hps : g.rightLinearPart.productions = g.productions := by
    apply FinMap.ext
    intro A
    rw [rightLinearPart, FinMap.get?_filterMap]
    cases hA : g.productions.get? A with
    | none => rfl
    | some ps =>
      rw [Option.bind_some, List.filter_eq_self.mpr]
      intro p hp
      exact decide_eq_true (hg A p (mem_productionsFor.mpr ⟨ps, hA, hp⟩))
  exact congrArg (fun ps => { g with productions := ps }) hps

end IsRightLinear

theorem mem_productionsFor_rightLinearPart {p : Production} :
    p ∈ g.rightLinearPart.productionsFor A ↔ p ∈ g.productionsFor A ∧ p.shape ≠ .other := by
  simp only [mem_productionsFor, rightLinearPart, FinMap.get?_filterMap, Option.bind_eq_some_iff,
    Option.some.injEq]
  constructor
  · rintro ⟨_, ⟨ps, hA, e⟩, hp⟩
    rw [← e, List.mem_filter, decide_eq_true_iff] at hp
    exact ⟨⟨ps, hA, hp.1⟩, hp.2⟩
  · rintro ⟨⟨ps, hA, hp⟩, hs⟩
    exact ⟨_, ⟨ps, hA, rfl⟩, List.mem_filter.mpr ⟨hp, decide_eq_true hs⟩⟩

theorem mem_productionsFor_rightLinearPart_of_shape {p : Production} (hp : p.shape ≠ .other) :
    p ∈ g.rightLinearPart.productionsFor A ↔ p ∈ g.productionsFor A := by
  rw [mem_productionsFor_rightLinearPart]
  exact and_iff_left hp

theorem isRightLinear_rightLinearPart : g.rightLinearPart.IsRightLinear := by
  intro A p hp
  exact (mem_productionsFor_rightLinearPart.mp hp).2

end Grammar

end RegLang
