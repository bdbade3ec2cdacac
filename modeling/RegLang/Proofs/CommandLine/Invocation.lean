import RegLang.CommandLine.Invocation

/-!
This module contains the arguments that ask for an automaton: every file can be named, and every
list of words to check can be given.
-/

namespace RegLang

namespace CommandLine

variable {checks : List String} {file value : String} {d : Draft}

theorem Argument.ofText_check :
    Argument.ofText ("--check=" ++ value) = .long "check" (some value) := by
  unfold Argument.ofText
  rw [String.toList_append]
  simp

namespace Draft

theorem read?_checks {args : List String} :
    d.read? .automaton (checks.map ("--check=" ++ ·) ++ args) =
      ({ d with checks := d.checks ++ checks } : Draft).read? .automaton args := by
  induction checks generalizing d with
  | nil =>
    rw [List.append_nil]
    rfl
  | cons value checks ih =>
    rw [List.map_cons, List.cons_append, read?, Argument.ofText_check]
    change Draft.read? .automaton { d with checks := d.checks ++ [value] } _ = _
    rw [ih, List.append_assoc]
    rfl

theorem read?_file (hfile : file ≠ "") (hd : d.file = none) :
    d.read? .automaton ["--", file] = some { d with file := some file } := by
  have hadd : d.addPlain? .automaton file = some { d with file := some file } := by
    unfold addPlain?
    simp [hfile, hd]
  rw [read?]
  change List.foldlM _ d [file] = _
  rw [List.foldlM_cons, hadd]
  rfl

end Draft

theorem ofArguments?_automaton (hfile : file ≠ "") :
    Invocation.ofArguments? ("automaton" :: (checks.map ("--check=" ++ ·) ++ ["--", file])) =
      some ⟨false, .automaton file checks⟩ := by
  have hverb (args : List String) : Invocation.ofArguments? ("automaton" :: args) = (do
      let draft ← Draft.read? .automaton {} args
      return ⟨draft.trace, ← draft.command? .automaton⟩) := rfl
  rw [hverb, Draft.read?_checks, Draft.read?_file hfile rfl]
  rfl

theorem ofVerb?_eq_some_iff {trace : Bool} {verb : String} {args : List String} {i : Invocation} :
    Invocation.ofArguments?.ofVerb? trace verb args = some i ↔
      ∃ v d c, Verb.ofText? verb = some v ∧ Draft.read? v {} args = some d ∧
        d.command? v = some c ∧ ⟨trace || d.trace, c⟩ = i := by
  unfold Invocation.ofArguments?.ofVerb?
  simp only [bind, Option.bind_eq_some_iff, pure, Option.some.injEq]
  constructor
  · rintro ⟨v, hv, d, hd, c, hc, hi⟩
    exact ⟨v, d, c, hv, hd, hc, hi⟩
  · rintro ⟨v, d, c, hv, hd, hc, hi⟩
    exact ⟨v, hv, d, hd, c, hc, hi⟩

theorem ofArguments?_trace {args : List String} {command : Command}
    (h : Invocation.ofArguments? args = some ⟨false, command⟩) :
    Invocation.ofArguments? ("--trace" :: args) = some ⟨true, command⟩ := by
  cases args with
  | nil => cases h
  | cons first args =>
    by_cases hfirst : first = "--trace"
    · subst hfirst
      cases args with
      | nil => cases h
      | cons verb args =>
        rcases ofVerb?_eq_some_iff.mp h with ⟨_, _, _, _, _, _, hi⟩
        cases hi
    · have hread : Invocation.ofArguments? (first :: args) =
          Invocation.ofArguments?.ofVerb? false first args := if_neg hfirst
      rw [hread] at h
      rcases ofVerb?_eq_some_iff.mp h with ⟨v, d, c, hv, hd, hc, hi⟩
      rw [Invocation.mk.injEq] at hi
      exact ofVerb?_eq_some_iff.mpr ⟨v, d, c, hv, hd, hc, by rw [hi.2, Bool.true_or]⟩

end CommandLine

end RegLang
