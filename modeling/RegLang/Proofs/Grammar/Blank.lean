import RegLang.Grammar.Derivation
import RegLang.Proofs.Grammar.Definition

/-!
This module contains what a grammar derives once the blanks are gone from its productions: what it
derived before, without the blanks.
-/

namespace RegLang

namespace Symbol

variable {s t u : List Symbol} {w : List Char} {A : Char}

theorem eraseBlanks_append : eraseBlanks (s ++ t) = eraseBlanks s ++ eraseBlanks t :=
  List.filter_append s t

theorem eraseBlanks_cons_nonTerminal (hA : Text.isBlank A = false) :
    eraseBlanks (.nonTerminal A :: s) = .nonTerminal A :: eraseBlanks s := by
  apply List.filter_cons_of_pos
  rw [char, hA]
  rfl

theorem eraseBlanks_ofWord : eraseBlanks (ofWord w) = ofWord (Text.eraseBlanks w) :=
  List.filter_map

theorem map_char_ofWord : (ofWord w).map char = w := by
  unfold ofWord
  rw [List.map_map]
  exact List.map_id w

theorem exists_of_eraseBlanks_eq (h : eraseBlanks s = t ++ .nonTerminal A :: u) :
    ∃ before after, s = before ++ .nonTerminal A :: after ∧ eraseBlanks before = t ∧
      eraseBlanks after = u := by
  rcases List.filter_eq_append_iff.mp h with ⟨s₁, s₂, hs, ht, hu⟩
  rcases List.filter_eq_cons_iff.mp hu with ⟨gap, after, hs₂, hgap, _, hafter⟩
  refine ⟨s₁ ++ gap, after, ?_, ?_, hafter⟩
  · rw [hs, hs₂, List.append_assoc]
  · rw [eraseBlanks_append, eraseBlanks, ht, eraseBlanks, List.filter_eq_nil_iff.mpr hgap,
      List.append_nil]

end Symbol

namespace Grammar

variable {g : Grammar} {s t u : List Symbol} {w : List Char}

theorem IsValid.declares_of_step (hg : g.IsValid) (h : g.Step s t)
    (hs : ∀ x, x ∈ s → g.Declares x) : ∀ x, x ∈ t → g.Declares x := by
  cases h with
  | @apply A p before after hp =>
    intro x hx
    rw [List.mem_append, List.mem_append] at hx
    rcases hx with hx | hx | hx
    · exact hs x (by simp [hx])
    · exact hg.declares A p x hp hx
    · exact hs x (by simp [hx])

theorem IsValid.declares_of_derives (hg : g.IsValid) (h : g.Derives s t)
    (hs : ∀ x, x ∈ s → g.Declares x) : ∀ x, x ∈ t → g.Declares x := by
  induction h with
  | refl => exact hs
  | head e _ ih => exact ih (hg.declares_of_step e hs)

theorem exists_step_of_step_withoutBlanks (h : g.withoutBlanks.Step (Symbol.eraseBlanks s) u) :
    ∃ t, g.Step s t ∧ Symbol.eraseBlanks t = u := by
  generalize hs : Symbol.eraseBlanks s = r at h
  cases h with
  | @apply A p before after hp =>
    rcases Symbol.exists_of_eraseBlanks_eq hs with ⟨before', after', hs, hb, ha⟩
    rw [productionsFor_withoutBlanks, List.mem_map] at hp
    rcases hp with ⟨p', hp', e⟩
    refine ⟨before' ++ (p'.symbols ++ after'), hs ▸ .apply before' after' hp', ?_⟩
    rw [Symbol.eraseBlanks_append, Symbol.eraseBlanks_append, hb, ha, ← e]
    rfl

theorem exists_derives_of_derives_withoutBlanks
    (h : g.withoutBlanks.Derives (Symbol.eraseBlanks s) u) :
    ∃ t, g.Derives s t ∧ Symbol.eraseBlanks t = u := by
  generalize hs : Symbol.eraseBlanks s = r at h
  induction h generalizing s with
  | refl => exact ⟨s, .refl s, hs⟩
  | head e _ ih =>
    rw [← hs] at e
    rcases exists_step_of_step_withoutBlanks e with ⟨t, e, ht⟩
    rcases ih ht with ⟨u, d, hu⟩
    exact ⟨u, .head e d, hu⟩

theorem eq_ofWord_of_eraseBlanks (hn : ∀ c, c ∈ g.nonTerminals → Text.isBlank c = false)
    (hs : ∀ x, x ∈ s → g.Declares x) (h : Symbol.eraseBlanks s = Symbol.ofWord w) :
    s = Symbol.ofWord (s.map Symbol.char) := by
  unfold Symbol.ofWord
  rw [List.map_map, List.map_congr_left (g := id), List.map_id]
  intro x hx
  cases x with
  | terminal a => rfl
  | nonTerminal A =>
    have hA : .nonTerminal A ∈ Symbol.eraseBlanks s :=
      Symbol.mem_eraseBlanks.mpr ⟨hx, hn A (hs _ hx)⟩
    rw [h, Symbol.ofWord, List.mem_map] at hA
    rcases hA with ⟨_, _, e⟩
    cases e

section

variable (hg : g.IsValid) (hn : ∀ c, c ∈ g.nonTerminals → Text.isBlank c = false)

include hg hn

theorem step_withoutBlanks (h : g.Step s t) :
    g.withoutBlanks.Step (Symbol.eraseBlanks s) (Symbol.eraseBlanks t) := by
  cases h with
  | @apply A p before after hp =>
    rcases mem_productionsFor.mp hp with ⟨ps, hA, _⟩
    rw [Symbol.eraseBlanks_append, Symbol.eraseBlanks_append, Symbol.eraseBlanks_append,
      Symbol.eraseBlanks_cons_nonTerminal (hn A (hg.lhs_mem A ps hA))]
    apply Step.apply (p := p.withoutBlanks)
    rw [productionsFor_withoutBlanks]
    exact List.mem_map_of_mem hp

theorem derives_withoutBlanks (h : g.Derives s t) :
    g.withoutBlanks.Derives (Symbol.eraseBlanks s) (Symbol.eraseBlanks t) := by
  induction h with
  | refl => exact .refl _
  | head e _ ih => exact .head (step_withoutBlanks hg hn e) ih

theorem generates_withoutBlanks :
    g.withoutBlanks.Generates w ↔ ∃ v, g.Generates v ∧ Text.eraseBlanks v = w := by
  have hstart : g.withoutBlanks.Generates w ↔
      g.withoutBlanks.Derives (Symbol.eraseBlanks [.nonTerminal g.start]) (Symbol.ofWord w) := by
    rw [Symbol.eraseBlanks_cons_nonTerminal (hn _ hg.start_mem)]
    exact Iff.rfl
  rw [hstart]
  constructor
  · intro h
    rcases exists_derives_of_derives_withoutBlanks h with ⟨t, d, ht⟩
    have hdeclared : ∀ x, x ∈ t → g.Declares x := by
      apply hg.declares_of_derives d
      intro x hx
      rw [List.mem_singleton.mp hx]
      exact hg.start_mem
    have hword := eq_ofWord_of_eraseBlanks hn hdeclared ht
    refine ⟨_, hword ▸ d, ?_⟩
    rw [← Symbol.map_char_eraseBlanks, ht]
    exact Symbol.map_char_ofWord
  · rintro ⟨v, h, hv⟩
    rw [← hv, ← Symbol.eraseBlanks_ofWord]
    exact derives_withoutBlanks hg hn h

end

end Grammar

end RegLang
