import RegLang.FinSet.Lemmas
import RegLang.Production
import RegLang.Proofs.Text.Blank

/-!
This module contains what a written right-hand side is read as: each of its letters becomes one
symbol. The letters are the characters that are no blanks, and a lone `ε` has none.
-/

namespace RegLang

namespace Production

variable {names : FinSet Char} {rhs : List Char} {s : Symbol} {c : Char}

def letters (rhs : List Char) : List Char :=
  if Text.trim rhs = [RegLang.epsilon] then [] else Text.eraseBlanks rhs

theorem mem_letters :
    c ∈ letters rhs ↔ Text.trim rhs ≠ [RegLang.epsilon] ∧ c ∈ rhs ∧ Text.isBlank c = false := by
  unfold letters
  split
  · simp_all
  · simp_all [Text.mem_eraseBlanks]

theorem letters_eq : letters rhs =
    if Text.eraseBlanks rhs = [RegLang.epsilon] then [] else Text.eraseBlanks rhs := by
  unfold letters
  simp only [Text.trim_eq_singleton_iff (c := RegLang.epsilon) rfl]

theorem letters_eraseBlanks : letters (Text.eraseBlanks rhs) = letters rhs := by
  rw [letters_eq, letters_eq, Text.eraseBlanks_eraseBlanks]

theorem letters_ne_epsilon : letters rhs ≠ [RegLang.epsilon] := by
  rw [letters_eq]
  split
  · exact (List.cons_ne_nil _ _).symm
  · assumption

theorem char_tag : (tag names c).char = c := by
  unfold tag
  split
  · rfl
  · rfl

theorem isTerminal_tag : (tag names c).isTerminal = true ↔ ¬ c ∈ names := by
  unfold tag
  split
  · next h =>
    rw [FinSet.contains_iff] at h
    simp [Symbol.isTerminal, h]
  · next h =>
    rw [FinSet.contains_iff] at h
    simp [Symbol.isTerminal, h]

theorem tag_char_eq_self_iff : tag names s.char = s ↔ (s.isTerminal = true ↔ ¬ s.char ∈ names) := by
  rw [← @isTerminal_tag names]
  constructor
  · intro h
    rw [h]
  · intro h
    exact Symbol.ext (Bool.eq_iff_iff.mpr h.symm) char_tag

theorem parse_eq : parse names rhs = ⟨(letters rhs).map (tag names)⟩ := by
  unfold parse letters
  dsimp only
  split
  · next h =>
    cases h with
    | inl h =>
      rw [h, if_neg (List.cons_ne_nil _ _).symm, Text.trim_eq_nil_iff.mp h]
      rfl
    | inr h =>
      rw [if_pos h]
      rfl
  · next h =>
    rw [if_neg fun h' => h (.inr h'), ← Text.eraseBlanks_trim]
    rfl

theorem parse_eraseBlanks : parse names (Text.eraseBlanks rhs) = parse names rhs := by
  rw [parse_eq, parse_eq, letters_eraseBlanks]

theorem map_char_parse : (parse names rhs).symbols.map Symbol.char = letters rhs := by
  rw [parse_eq, List.map_map, List.map_congr_left (g := id), List.map_id]
  intro c _
  exact char_tag

theorem mem_parse : s ∈ (parse names rhs).symbols ↔ ∃ c, c ∈ letters rhs ∧ tag names c = s := by
  rw [parse_eq, List.mem_map]

theorem isBlank_of_mem_parse (h : s ∈ (parse names rhs).symbols) :
    Text.isBlank s.char = false := by
  rcases mem_parse.mp h with ⟨c, hc, rfl⟩
  rw [char_tag]
  exact (mem_letters.mp hc).2.2

theorem tag_char_of_mem_parse (h : s ∈ (parse names rhs).symbols) : tag names s.char = s := by
  rcases mem_parse.mp h with ⟨c, _, rfl⟩
  rw [char_tag]

end Production

end RegLang
