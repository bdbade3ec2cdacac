import RegLang.Proofs.Production.Parse

/-!
This module contains what is read back of a written production: its symbols without the blanks.
-/

namespace RegLang

namespace Symbol

variable {s : Symbol} {symbols : List Symbol}

def eraseBlanks (symbols : List Symbol) : List Symbol :=
  symbols.filter fun s => !Text.isBlank s.char

theorem mem_eraseBlanks :
    s ∈ eraseBlanks symbols ↔ s ∈ symbols ∧ Text.isBlank s.char = false := by
  simp [eraseBlanks]

theorem map_char_eraseBlanks :
    (eraseBlanks symbols).map char = Text.eraseBlanks (symbols.map char) := by
  unfold Text.eraseBlanks
  rw [List.filter_map]
  rfl

end Symbol

namespace Production

variable {p : Production} {nonTerminals : FinSet Char}

def withoutBlanks (p : Production) : Production := ⟨Symbol.eraseBlanks p.symbols⟩

theorem withoutBlanks_eq_self_iff :
    p.withoutBlanks = p ↔ ∀ s, s ∈ p.symbols → Text.isBlank s.char = false := by
  cases p with
  | mk symbols => simp [withoutBlanks, Symbol.eraseBlanks]

theorem text_of_symbols_ne_nil (h : p.symbols ≠ []) : p.text = p.symbols.map Symbol.char := by
  unfold text
  split
  · contradiction
  · simp_all

theorem letters_text (hε : p.withoutBlanks.symbols.map Symbol.char ≠ [RegLang.epsilon]) :
    letters p.text = p.withoutBlanks.symbols.map Symbol.char := by
  have hchars : p.withoutBlanks.symbols.map Symbol.char =
      Text.eraseBlanks (p.symbols.map Symbol.char) := Symbol.map_char_eraseBlanks
  by_cases hp : p.symbols = []
  · cases p
    subst hp
    rfl
  · rw [text_of_symbols_ne_nil hp, letters_eq, ← hchars, if_neg hε]

theorem parse_text (hε : p.withoutBlanks.symbols.map Symbol.char ≠ [RegLang.epsilon])
    (ht : ∀ s, s ∈ p.symbols → tag nonTerminals s.char = s) :
    parse nonTerminals p.text = p.withoutBlanks := by
  have htag : p.withoutBlanks.symbols.map (tag nonTerminals ∘ Symbol.char) =
      p.withoutBlanks.symbols := by
    rw [List.map_congr_left (g := id), List.map_id]
    intro s hs
    exact ht s (Symbol.mem_eraseBlanks.mp hs).1
  rw [parse_eq, letters_text hε, List.map_map, htag]

theorem map_char_ne_epsilon {symbols : List Symbol}
    (h : ∀ s, s ∈ symbols → s.char ≠ RegLang.epsilon) :
    symbols.map Symbol.char ≠ [RegLang.epsilon] := by
  intro e
  have hmem : RegLang.epsilon ∈ symbols.map Symbol.char := e ▸ List.mem_singleton_self _
  rcases List.mem_map.mp hmem with ⟨s, hs, e⟩
  exact h s hs e

end Production

end RegLang
