import RegLang.CommandLine.Program
import RegLang.Proofs.Automaton.Reload
import RegLang.Proofs.CommandLine.Invocation
import RegLang.Proofs.File

/-!
This module contains what the program prints about an automaton when it prints no events, and how it
ends: it answers by the accepting paths of the automaton, and a second time in the same way if the
automaton is not deterministic.
-/

namespace RegLang

namespace CommandLine

variable {σ : Type} [Ordered σ] {A : Automaton σ} {checks arguments : List String}
  {file input : String}

def answer (A : Automaton σ) (input : String) : String :=
  s!"'{input}' belongs to language: {decide (A.HasAcceptingPath input.toList)}\n"

def answers (A : Automaton σ) (checks : List String) : String :=
  if checks = [] then ""
  else "=== Checking strings ===\n" ++ String.join (checks.map (answer A))

def description (A : Automaton String) (g : Grammar) : String :=
  let verdict :=
    match A.nondeterminism? with
    | none => "true"
    | some reason => s!"false ({reason.text})"
  s!"\n=== Automaton ===\n{A.text}\n" ++ s!"Is Deterministic: {verdict}\n"
    ++ s!"\n=== Equivalent grammar ===\n{g.text}\n"
    ++ s!"Classification: {g.classify.text}\n"

theorem checkLine_noop {τ : Type} [Ordered τ] [ToString τ] {B : Automaton τ}
    (h : B.accepts input.toList = A.accepts input.toList) :
    checkLine .noop B input = answer A input := by
  have haccepts : A.accepts input.toList = decide (A.HasAcceptingPath input.toList) := by
    rw [Bool.eq_iff_iff, decide_eq_true_iff]
    exact Automaton.accepts_iff_hasAcceptingPath
  unfold checkLine answer
  rw [h, haccepts]
  exact String.empty_append

theorem checkReport_noop {τ : Type} [Ordered τ] [ToString τ] {B : Automaton τ}
    (h : ∀ w, B.accepts w = A.accepts w) : checkReport .noop B checks = answers A checks := by
  unfold checkReport answers
  simp only [List.isEmpty_iff]
  split
  · rfl
  · have hlines : checks.map (checkLine .noop B) = checks.map (answer A) := by
      apply List.map_congr_left
      intro input _
      exact checkLine_noop (h input.toList)
    rw [hlines]

theorem determinizationReport_noop {A : Automaton String} (hA : A.IsValid) :
    determinizationReport .noop A checks =
      if A.isDeterministic then ""
      else s!"\n=== Converted DFA ===\n{A.toDfa.text}\n" ++ answers A checks := by
  have hdfa (w : List Char) : A.toDfa.accepts w = A.accepts w := Automaton.accepts_determinize hA
  unfold determinizationReport
  split
  · rfl
  · dsimp only
    rw [checkReport_noop hdfa, Observer.printed, String.empty_append]

theorem automatonReport_noop {A : Automaton String} {g : Grammar} (hg : A.toGrammar? = some g) :
    automatonReport .noop A checks =
      (description A g ++ answers A checks ++ determinizationReport .noop A checks, true) := by
  unfold automatonReport
  rw [hg]
  dsimp only
  rw [checkReport_noop fun _ => rfl]
  rfl

/--
Without events, the program answers for a loaded automaton whose states can be named: it describes
the automaton, says of each word in turn whether an accepting path has it and, just if the automaton
is not deterministic, shows the deterministic one with the same answers. Where nothing can be loaded
it only says what it tried to load, and fails.
-/
theorem run_automaton
    (harguments : Invocation.ofArguments? arguments = some ⟨false, .automaton file checks⟩)
    (files : Files) (source : WordSource) :
    (∀ A, files.loadAutomaton file = .ok A → A.states.size ≤ A.freeLetters.length →
      ∃ g, A.toGrammar? = some g ∧ run arguments files source =
        ⟨0, s!"Loading automaton from {file}...\n" ++ description A g ++ answers A checks
          ++ if A.isDeterministic then ""
            else s!"\n=== Converted DFA ===\n{A.toDfa.text}\n" ++ answers A checks⟩) ∧
    ∀ e, files.loadAutomaton file = .error e →
      run arguments files source = ⟨1, s!"Loading automaton from {file}...\n"⟩ := by
  have hrun : run arguments files source =
      runAutomaton .noop file (files.loadAutomaton file) checks := by
    unfold run
    rw [harguments]
    rfl
  rw [hrun]
  constructor
  · intro A hload hn
    have hA := files.isValid_of_loadAutomaton hload
    rcases Automaton.exists_toGrammar? hA hn with ⟨g, hg⟩
    refine ⟨g, hg, ?_⟩
    rw [hload]
    unfold runAutomaton
    dsimp only
    rw [automatonReport_noop hg, determinizationReport_noop hA]
    simp only [Outcome.ofReport, String.append_assoc, if_true]
  · intro e hload
    rw [hload]
    rfl

def saved : Files := fun name =>
  if name = "saved" then
    some (String.ofList (Automaton.Definition.ofAutomaton Automaton.punctuated).toJson.pretty).toUTF8
  else none

theorem size_punctuated_le :
    Automaton.punctuated.states.size ≤ Automaton.punctuated.freeLetters.length := by
  apply Nat.le_trans _ Automaton.length_free_capitals_le
  decide

theorem run_automaton_saved :
    (∃ g, Automaton.punctuated.toGrammar? = some g ∧
      run ["automaton", "--check=", "--check=aba", "--", "saved"] saved ⟨[], 0⟩ =
        ⟨0, "Loading automaton from saved...\n" ++ description Automaton.punctuated g
          ++ "=== Checking strings ===\n'' belongs to language: false\n"
          ++ "'aba' belongs to language: true\n"
          ++ s!"\n=== Converted DFA ===\n{Automaton.punctuated.toDfa.text}\n"
          ++ "=== Checking strings ===\n'' belongs to language: false\n"
          ++ "'aba' belongs to language: true\n"⟩) ∧
    run ["automaton", "--check=a", "--", "lost"] saved ⟨[], 0⟩ =
      ⟨1, "Loading automaton from lost...\n"⟩ := by
  constructor
  · have hload : saved.loadAutomaton "saved" = .ok Automaton.punctuated :=
      Files.loadAutomaton_eq Automaton.isValid_punctuated rfl
    have harguments := @ofArguments?_automaton ["", "aba"] "saved" (by decide)
    rcases (run_automaton harguments saved ⟨[], 0⟩).1 _ hload size_punctuated_le with ⟨g, hg, hrun⟩
    refine ⟨g, hg, hrun.trans ?_⟩
    have hanswers : answers Automaton.punctuated ["", "aba"] =
        "=== Checking strings ===\n'' belongs to language: false\n"
          ++ "'aba' belongs to language: true\n" := by
      decide +kernel
    have hbranching : Automaton.punctuated.isDeterministic = false := by decide +kernel
    rw [hanswers, hbranching]
    simp only [String.append_assoc, Bool.false_eq_true, if_false]
    rfl
  · have harguments := @ofArguments?_automaton ["a"] "lost" (by decide)
    exact (run_automaton harguments saved ⟨[], 0⟩).2 _ rfl

end CommandLine

end RegLang
