import RegLang.Proofs.Automaton.ToGrammar
import RegLang.Proofs.Grammar.Blank

/-!
This module contains what becomes of the grammar of an automaton that is written as a definition and
read again: it generates the words of the automaton without their blanks.
-/

namespace RegLang

namespace Automaton

variable {σ : Type} [Ordered σ] {A : Automaton σ} {names : FinMap σ Char} {g : Grammar} {q r : σ}
  {a c : Char} {w : List Char}

theorem isBlank_of_mem_freeLetters (h : c ∈ A.freeLetters) : Text.isBlank c = false :=
  Text.isBlank_of_mem_nameLetters (mem_freeLetters.mp h).1

theorem mem_alphabet_of_path (hA : A.IsValid) (h : A.Path q w r) (hc : c ∈ w) : c ∈ A.alphabet := by
  induction h with
  | nil => cases hc
  | cons e _ ih =>
    rcases List.mem_cons.mp hc with hc | hc
    · exact hc ▸ (hA.mem_of_edge e).2.1
    · exact ih hc

theorem mem_alphabet_of_accepts (hA : A.IsValid) (h : A.accepts w = true) (hc : c ∈ w) :
    c ∈ A.alphabet := by
  rcases accepts_iff_hasAcceptingPath.mp h with ⟨r, h, _⟩
  exact mem_alphabet_of_path hA h hc

namespace IsGrammarOf

variable (h : A.IsGrammarOf names g)

include h

theorem generates_withoutBlanks (hA : A.IsValid) :
    g.withoutBlanks.Generates w ↔ ∃ v, A.accepts v = true ∧ Text.eraseBlanks v = w := by
  rw [Grammar.generates_withoutBlanks (h.isValid hA)]
  · simp only [h.generates_iff_accepts hA]
  · intro c hc
    exact isBlank_of_mem_freeLetters (h.mem_freeLetters_of_mem_nonTerminals hc)

end IsGrammarOf

theorem exists_toGrammar?_reload_generates_iff (hA : A.IsValid)
    (hn : A.states.size ≤ A.freeLetters.length) :
    ∃ g h, A.toGrammar? = some g ∧ g.reload = .ok h ∧
      ∀ w, h.Generates w ↔ ∃ v, A.accepts v = true ∧ Text.eraseBlanks v = w := by
  rcases exists_toGrammar? hA hn with ⟨g, hg⟩
  rcases exists_isGrammarOf hA hg with ⟨names, h⟩
  exact ⟨g, _, hg, Grammar.reload_eq (h.isValid hA), fun w => h.generates_withoutBlanks hA⟩

/--
If the free letters suffice to name the states, the grammar of an automaton can be written and read
again, and generates the words of the automaton without their blanks then. These are the same words
if and only if the automaton accepts no word with a blank.
-/
theorem exists_toGrammar?_reload (hA : A.IsValid) (hn : A.states.size ≤ A.freeLetters.length) :
    ∃ g h, A.toGrammar? = some g ∧ g.reload = .ok h ∧
      (∀ w, h.Generates w ↔ ∃ v, A.accepts v = true ∧ Text.eraseBlanks v = w) ∧
      ((∀ w, h.Generates w ↔ A.accepts w = true) ↔
        ∀ w, A.accepts w = true → ∀ c, c ∈ w → Text.isBlank c = false) := by
  rcases exists_toGrammar?_reload_generates_iff hA hn with ⟨g, h, hg, hr, hh⟩
  refine ⟨g, h, hg, hr, hh, ?_⟩
  constructor
  · intro hw w ha c hc
    rcases (hh w).mp ((hw w).mpr ha) with ⟨v, _, hv⟩
    exact Text.isBlank_of_mem_eraseBlanks (hv ▸ hc)
  · intro hb w
    rw [hh]
    constructor
    · rintro ⟨v, ha, hv⟩
      rw [Text.eraseBlanks_eq_self_iff.mpr (hb v ha)] at hv
      exact hv ▸ ha
    · intro ha
      exact ⟨w, ha, Text.eraseBlanks_eq_self_iff.mpr (hb w ha)⟩

theorem exists_toGrammar?_reload_deadEnded :
    deadEnded.IsValid ∧ deadEnded.states.size ≤ deadEnded.freeLetters.length ∧
      ∃ g h, deadEnded.toGrammar? = some g ∧ g.reload = .ok h ∧
        ∀ w, h.Generates w ↔ deadEnded.accepts w = true := by
  refine ⟨isValid_deadEnded, size_deadEnded_le, ?_⟩
  rcases exists_toGrammar?_reload isValid_deadEnded size_deadEnded_le with ⟨g, h, hg, hr, _, hiff⟩
  refine ⟨g, h, hg, hr, hiff.mpr ?_⟩
  intro w hw c hc
  have hmem : c ∈ ['S', 'a'] :=
    FinSet.mem_ofList.mp (mem_alphabet_of_accepts isValid_deadEnded hw hc)
  have hplain : (['S', 'a'].all fun c => !Text.isBlank c) = true := rfl
  simpa using List.all_eq_true.mp hplain c hmem

def spaced : Automaton Int where
  states := .ofList [0, 1]
  alphabet := .singleton ' '
  transitions := .ofTriples [(0, ' ', 1)]
  initial := 0
  finals := .singleton 1

theorem isValid_spaced : spaced.IsValid := by
  apply isValid_of_checked (A := spaced)
  rfl

theorem size_spaced_le : spaced.states.size ≤ spaced.freeLetters.length := by
  apply Nat.le_trans _ length_free_capitals_le
  decide

theorem exists_toGrammar?_reload_generates_rejected :
    spaced.IsValid ∧ ∃ g h, spaced.toGrammar? = some g ∧ g.reload = .ok h ∧
      h.Generates [] ∧ ¬ spaced.accepts [] = true := by
  rcases exists_toGrammar?_reload_generates_iff isValid_spaced size_spaced_le with
    ⟨g, h, hg, hr, hh⟩
  exact ⟨isValid_spaced, g, h, hg, hr, (hh []).mpr ⟨[' '], rfl, rfl⟩, by decide⟩

end Automaton

end RegLang
