import RegLang.Proofs.Production.Blank

/-!
This module contains how reading and writing productions go together: a written right-hand side is
printed without its blanks, what is printed is read as the same production again, and a production
is read back from its text if and only if it is legible.
-/

namespace RegLang

namespace Production

variable {names : FinSet Char} {rhs : List Char} {p : Production}

structure IsLegible (names : FinSet Char) (p : Production) : Prop where
  isBlank_eq_false : ∀ s, s ∈ p.symbols → Text.isBlank s.char = false
  tag_char : ∀ s, s ∈ p.symbols → tag names s.char = s
  /-- A lone `ε` would be read as the empty production. -/
  map_char_ne : p.symbols.map Symbol.char ≠ [RegLang.epsilon]

theorem isLegible_parse : (parse names rhs).IsLegible names where
  isBlank_eq_false := fun _ => isBlank_of_mem_parse
  tag_char := fun _ => tag_char_of_mem_parse
  map_char_ne := by
    rw [map_char_parse]
    exact letters_ne_epsilon

theorem parse_text_eq_self_iff : parse names p.text = p ↔ p.IsLegible names := by
  constructor
  · intro h
    rw [← h]
    exact isLegible_parse
  · intro h
    have hself := withoutBlanks_eq_self_iff.mpr h.isBlank_eq_false
    have hε := h.map_char_ne
    rw [← hself] at hε
    rw [parse_text hε h.tag_char, hself]

theorem parse_text_parse : parse names (parse names rhs).text = parse names rhs :=
  parse_text_eq_self_iff.mpr isLegible_parse

theorem text_parse : (parse names rhs).text =
    if Text.eraseBlanks rhs = [] ∨ Text.eraseBlanks rhs = [RegLang.epsilon] then
      [RegLang.epsilon]
    else
      Text.eraseBlanks rhs := by
  split
  · next h =>
    have hletters : letters rhs = [] := by
      rw [letters_eq]
      split
      · rfl
      · exact h.resolve_right ‹_›
    rw [parse_eq, hletters]
    rfl
  · next h =>
    rw [not_or] at h
    have hchars : (parse names rhs).symbols.map Symbol.char = Text.eraseBlanks rhs := by
      rw [map_char_parse, letters_eq, if_neg h.2]
    have hsymbols : (parse names rhs).symbols ≠ [] := by
      intro e
      rw [e] at hchars
      exact h.1 hchars.symm
    rw [text_of_symbols_ne_nil hsymbols, hchars]

theorem isLegible_of_mem_names (hblank : ∀ s, s ∈ p.symbols → Text.isBlank s.char = false)
    (hε : ∀ s, s ∈ p.symbols → s.char ≠ RegLang.epsilon)
    (hn : ∀ A, .nonTerminal A ∈ p.symbols → A ∈ names)
    (ht : ∀ a, .terminal a ∈ p.symbols → ¬ a ∈ names) : p.IsLegible names where
  isBlank_eq_false := hblank
  tag_char := by
    intro s hs
    rw [tag_char_eq_self_iff]
    cases s with
    | nonTerminal A => exact ⟨nofun, fun h => absurd (hn A hs) h⟩
    | terminal a => exact ⟨fun _ => ht a hs, fun _ => rfl⟩
  map_char_ne := map_char_ne_epsilon hε

/--
A written right-hand side is printed without its blanks, or as `ε` if nothing else or a lone `ε` is
left, and this text is read as the same production. A production without blanks and `ε` is read back
from its text if `names` holds its non-terminals and none of its terminals.
-/
theorem toString_parse_and_parse_toString (names : FinSet Char) :
    (∀ rhs, toString (parse names rhs) = String.ofList
      (if Text.eraseBlanks rhs = [] ∨ Text.eraseBlanks rhs = [RegLang.epsilon] then
        [RegLang.epsilon]
      else
        Text.eraseBlanks rhs)) ∧
    (∀ rhs, parse names (toString (parse names rhs)).toList = parse names rhs) ∧
    ∀ p : Production, (∀ s, s ∈ p.symbols → Text.isBlank s.char = false) →
      (∀ s, s ∈ p.symbols → s.char ≠ RegLang.epsilon) →
      (∀ A, .nonTerminal A ∈ p.symbols → A ∈ names) →
      (∀ a, .terminal a ∈ p.symbols → ¬ a ∈ names) →
      parse names (toString p).toList = p := by
  have htoList (p : Production) : (toString p).toList = p.text := String.toList_ofList
  refine ⟨?_, ?_, ?_⟩
  · intro rhs
    exact congrArg String.ofList text_parse
  · intro rhs
    rw [htoList, parse_text_parse]
  · intro p hblank hε hn ht
    rw [htoList, parse_text_eq_self_iff]
    exact isLegible_of_mem_names hblank hε hn ht

theorem toString_parse_and_parse_toString_capital :
    toString (parse (.ofList ['S']) [' ', 'ε', '\t', 'ε']) = "εε" ∧
    (parse (.ofList ['S']) "εε".toList).symbols = [.terminal 'ε', .terminal 'ε'] ∧
    (∀ s, s ∈ (step 'A' 'S').symbols → Text.isBlank s.char = false) ∧
    (∀ s, s ∈ (step 'A' 'S').symbols → s.char ≠ RegLang.epsilon) ∧
    (∀ A, .nonTerminal A ∈ (step 'A' 'S').symbols → A ∈ FinSet.ofList ['S']) ∧
    (∀ a, .terminal a ∈ (step 'A' 'S').symbols → ¬ a ∈ FinSet.ofList ['S']) ∧
    parse (.ofList ['S']) (toString (step 'A' 'S')).toList = step 'A' 'S' := by
  rcases toString_parse_and_parse_toString (.ofList ['S']) with ⟨htext, hparse, hstep⟩
  have hprinted : toString (parse (.ofList ['S']) [' ', 'ε', '\t', 'ε']) = "εε" := htext _
  have hblank : ∀ s, s ∈ (step 'A' 'S').symbols → Text.isBlank s.char = false := by decide
  have hε : ∀ s, s ∈ (step 'A' 'S').symbols → s.char ≠ RegLang.epsilon := by decide
  have hn : ∀ A, .nonTerminal A ∈ (step 'A' 'S').symbols → A ∈ FinSet.ofList ['S'] := by
    simp [step]
  have ht : ∀ a, .terminal a ∈ (step 'A' 'S').symbols → ¬ a ∈ FinSet.ofList ['S'] := by
    simp [step]
  refine ⟨hprinted, ?_, hblank, hε, hn, ht, hstep _ hblank hε hn ht⟩
  rw [← hprinted, hparse]
  rfl

end Production

end RegLang
