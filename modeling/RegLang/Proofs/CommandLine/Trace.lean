import RegLang.Proofs.Automaton.GrammarReload
import RegLang.Proofs.Automaton.OneLine
import RegLang.Proofs.CommandLine.Automaton

/-!
This module contains what the printing of events changes about the report on an automaton: it adds
lines that begin with four blanks and a dot. No other line begins in this way, so the report without
events comes back when these lines are deleted.
-/

namespace RegLang

theorem Production.isOneLine_toString {p : Production} (h : ∀ s, s ∈ p.symbols → s.char ≠ '\n') :
    Text.IsOneLine (toString p) := by
  apply Text.isOneLine_ofList
  unfold Production.text
  split
  · decide
  · rename_i hs
    rw [← hs, List.mem_map]
    rintro ⟨s, hs, hc⟩
    exact h s hs hc

namespace CommandLine

variable {σ : Type} [Ordered σ] [ToString σ] {A : Automaton σ} {g : Grammar} {checks : List String}
  {input : String}  {events : List Event} {c : Char} {ps : List Production}

def eventMark : List Char := [' ', ' ', ' ', ' ', '·']

theorem leaves_consoleLine {e : Event} (he : Text.IsOneLine e.text) :
    Text.Leaves eventMark (Observer.consoleLine e) "" := by
  apply Text.leaves_of_isPrefix (Text.IsOneLine.append (by decide) he)
  simp [eventMark, String.toList_append]

theorem leaves_printed (h : ∀ e, e ∈ events → Text.IsOneLine e.text) :
    Text.Leaves eventMark (Observer.console.printed events) (Observer.noop.printed events) := by
  unfold Observer.printed
  induction events with
  | nil => exact Text.leaves_empty
  | cons e events ih =>
    dsimp only at ih ⊢
    rw [List.map_cons, String.join_cons]
    exact (leaves_consoleLine (h e List.mem_cons_self)).append
      (ih fun e' he' => h e' (List.mem_cons_of_mem e he'))

theorem keeps_transitionLine {q : σ} {a : Char} {targets : FinSet σ}
    (hq : Text.IsOneLine (toString q)) (ha : Text.IsOneLine (toString a))
    (ht : Text.IsOneLine (Text.braced targets.names)) :
    Text.Keeps eventMark (Automaton.transitionLine q a targets) := by
  have hp : Text.Begins eventMark "  δ(" := by decide
  have hsymbol := ((hp.append hq).append (s := ", ") (by decide)).append ha
  exact ((hsymbol.append (s := ") = ") (by decide)).append ht).keeps

theorem keeps_automatonText (hA : A.IsValid) (h : A.IsOneLined) :
    Text.Keeps eventMark A.text := by
  have hstates : Text.Keeps eventMark ("States (Q): " ++ Text.braced A.states.names ++ "\n") :=
    (Text.Begins.append (by decide) (h.names fun _ => id)).keeps
  have halphabet := hstates.line (p := "Alphabet (Σ): ") (by decide) h.alphabet
  have hinitial := halphabet.append
    (Text.Begins.append (p := "Initial State (q0): ") (by decide) (h.state _ hA.initial_mem)).keeps
  have hfinals := hinitial.line (p := "Final States (F): ") (by decide) (h.names hA.finals_mem)
  have hfunction : Text.Keeps eventMark "Transition Function (δ):\n" := by decide
  apply (hfinals.append hfunction).append
  apply Text.leaves_join
  rintro ⟨q, row⟩ hrow
  apply Text.leaves_join
  rintro ⟨a, targets⟩ hcell
  rw [FinMap.mem_entries] at hrow hcell
  have hs : A.successors? q a = some targets :=
    Transitions.successors?_eq_some_iff.mpr ⟨row, hrow, hcell⟩
  apply keeps_transitionLine (h.state q (hA.source_mem q row hrow))
    (h.symbol (hA.symbol_mem q a targets hs))
  exact h.names fun t ht => hA.target_mem q a t ⟨targets, hs, ht⟩

theorem begins_ruleLine (hc : Text.isBlank c = false) :
    Text.Begins eventMark ("  " ++ toString c) := by
  have hlist : ("  " ++ toString c).toList = [' ', ' ', c] := by
    rw [String.toList_append]
    exact congrArg ([' ', ' '] ++ ·) String.toList_ofList
  have hblank : c ≠ ' ' := by
    rintro rfl
    cases hc
  have hfeed : c ≠ '\n' := by
    rintro rfl
    cases hc
  constructor
  · exact Text.IsOneLine.append (by decide) (Text.isOneLine_toString hfeed)
  · simp [hlist, eventMark]
  · simp [hlist, eventMark, hblank]

theorem keeps_ruleLine (hc : Text.isBlank c = false)
    (hps : ∀ p, p ∈ ps → Text.IsOneLine (toString p)) :
    Text.Keeps eventMark (Grammar.ruleLine c ps) := by
  have hnames (name : String) (hname : name ∈ ps.map toString) : Text.IsOneLine name := by
    rcases List.mem_map.mp hname with ⟨p, hp, e⟩
    exact e ▸ hps p hp
  have harrow := (begins_ruleLine hc).append (s := " → ") (by decide)
  exact (harrow.append (Text.isOneLine_intercalate (by decide) hnames)).keeps

theorem keeps_grammarText (hg : g.IsValid)
    (hn : ∀ c, c ∈ g.nonTerminals → Text.isBlank c = false)
    (ht : ¬ '\n' ∈ g.terminals) : Text.Keeps eventMark g.text := by
  have hn' : ¬ '\n' ∈ g.nonTerminals := fun h => absurd (hn _ h) (by decide)
  have hnames {s : FinSet Char} (h : ¬ '\n' ∈ s) : Text.IsOneLine (toString s) :=
    FinSet.isOneLine_names fun c hc => Text.isOneLine_toString fun e => h (e ▸ hc)
  have hnonTerminals : Text.Keeps eventMark
      ("Non-terminals (VN): " ++ toString g.nonTerminals ++ "\n") :=
    (Text.Begins.append (by decide) (hnames hn')).keeps
  have hterminals := hnonTerminals.line (p := "Terminals (VT): ") (by decide) (hnames ht)
  have hname : Text.IsOneLine (toString g.start) :=
    Text.isOneLine_toString fun e => hn' (e ▸ hg.start_mem)
  have hstart := hterminals.append
    (Text.Begins.append (p := "Start Symbol (S): ") (by decide) hname).keeps
  have hproductions : Text.Keeps eventMark "Productions (P):\n" := by decide
  apply (hstart.append hproductions).append
  apply Text.leaves_join
  rintro ⟨c, ps⟩ he
  rw [FinMap.mem_entries] at he
  apply keeps_ruleLine (hn c (hg.lhs_mem c ps he))
  intro p hp
  apply Production.isOneLine_toString
  intro s hs e
  have hd := hg.declares c p s (Grammar.mem_productionsFor.mpr ⟨ps, he, hp⟩) hs
  cases s with
  | terminal a => exact ht (e ▸ hd)
  | nonTerminal B => exact hn' (e ▸ hd)

theorem keeps_section {title text : String} (hp : Text.Keeps eventMark title)
    (ht : Text.Keeps eventMark text) : Text.Keeps eventMark (title ++ text ++ "\n") := by
  have hfeed : Text.Keeps eventMark "\n" := by decide
  exact (hp.append ht).append hfeed

theorem leaves_checkLine (hA : A.IsValid) (h : A.IsOneLined) (hi : Text.IsOneLine input) :
    Text.Leaves eventMark (checkLine .console A input) (checkLine .noop A input) := by
  have hp : Text.Begins eventMark "'" := by decide
  have hbelongs : Text.IsOneLine (toString (A.accepts input.toList)) := by
    cases A.accepts input.toList <;> decide
  have hline := ((hp.append hi).append (s := "' belongs to language: ") (by decide)).append hbelongs
  exact (leaves_printed fun _ => h.text_runEvents hA hi).append hline.keeps

theorem leaves_checkReport (hA : A.IsValid) (h : A.IsOneLined)
    (hc : ∀ input, input ∈ checks → Text.IsOneLine input) :
    Text.Leaves eventMark (checkReport .console A checks) (checkReport .noop A checks) := by
  have hhead : Text.Keeps eventMark "=== Checking strings ===\n" := by decide
  unfold checkReport
  split
  · exact Text.leaves_empty
  · apply hhead.append
    apply Text.leaves_join
    intro input hi
    exact leaves_checkLine hA h (hc input hi)

theorem leaves_determinizationReport {A : Automaton String} (hA : A.IsValid) (h : A.IsOneLined)
    (hc : ∀ input, input ∈ checks → Text.IsOneLine input) :
    Text.Leaves eventMark (determinizationReport .console A checks)
      (determinizationReport .noop A checks) := by
  have hdfa : A.toDfa.IsValid := Automaton.isValid_determinize hA
  have hhead : Text.Keeps eventMark "\n=== Converted DFA ===\n" := by decide
  unfold determinizationReport
  split
  · exact Text.leaves_empty
  · have hevents := leaves_printed fun _ => h.text_subsetEvents hA
    have htext := keeps_section hhead (keeps_automatonText hdfa (h.toDfa hA))
    exact (hevents.append htext).append (leaves_checkReport hdfa (h.toDfa hA) hc)

def heading (A : Automaton String) : String :=
  let verdict :=
    match A.nondeterminism? with
    | none => "true"
    | some reason => s!"false ({reason.text})"
  s!"\n=== Automaton ===\n{A.text}\n" ++ s!"Is Deterministic: {verdict}\n"

theorem automatonReport_of_eq_none {o : Observer} {A : Automaton String}
    (hg : A.toGrammar? = none) : automatonReport o A checks = (heading A, false) := by
  unfold automatonReport
  rw [hg]
  rfl

theorem automatonReport_of_eq_some {o : Observer} {A : Automaton String}
    (hg : A.toGrammar? = some g) :
    automatonReport o A checks =
      (heading A ++ s!"\n=== Equivalent grammar ===\n{g.text}\n"
        ++ s!"Classification: {g.classify.text}\n" ++ checkReport o A checks
        ++ determinizationReport o A checks, true) := by
  unfold automatonReport
  rw [hg]
  rfl

theorem keeps_heading {A : Automaton String} (hA : A.IsValid) (h : A.IsOneLined) :
    Text.Keeps eventMark (heading A) := by
  have hhead : Text.Keeps eventMark "\n=== Automaton ===\n" := by decide
  have htext := keeps_section hhead (keeps_automatonText hA h)
  have hp : Text.Begins eventMark "Is Deterministic: " := by decide
  unfold heading
  cases hr : A.nondeterminism? with
  | none => exact htext.append (hp.append (s := "true") (by decide)).keeps
  | some r =>
    have hreason := Text.IsOneLine.append (s := "false (") (by decide) (h.text_reason hA hr)
    exact htext.append (hp.append (hreason.append (t := ")") (by decide))).keeps

theorem keeps_equivalentGrammar {A : Automaton String} (hA : A.IsValid) (h : A.IsOneLined)
    (hg : A.toGrammar? = some g) :
    Text.Keeps eventMark s!"\n=== Equivalent grammar ===\n{g.text}\n" := by
  rcases Automaton.exists_isGrammarOf hA hg with ⟨names, hnames⟩
  have hn (c : Char) (hc : c ∈ g.nonTerminals) : Text.isBlank c = false :=
    Automaton.isBlank_of_mem_freeLetters (hnames.mem_freeLetters_of_mem_nonTerminals hc)
  have ht : ¬ '\n' ∈ g.terminals := hnames.terminals ▸ h.lineFeed_not_mem
  have hhead : Text.Keeps eventMark "\n=== Equivalent grammar ===\n" := by decide
  exact keeps_section hhead (keeps_grammarText (hnames.isValid hA) hn ht)

theorem keeps_classification (g : Grammar) :
    Text.Keeps eventMark s!"Classification: {g.classify.text}\n" := by
  have hp : Text.Begins eventMark "Classification: " := by decide
  have hlevel : Text.IsOneLine g.classify.text := by
    cases g.classify <;> decide
  exact (hp.append hlevel).keeps

theorem leaves_automatonReport {A : Automaton String} (hA : A.IsValid) (h : A.IsOneLined)
    (hc : ∀ input, input ∈ checks → Text.IsOneLine input) :
    Text.Leaves eventMark (automatonReport .console A checks).1 (automatonReport .noop A checks).1 ∧
      (automatonReport .console A checks).2 = (automatonReport .noop A checks).2 := by
  have hheading := keeps_heading hA h
  cases hg : A.toGrammar? with
  | none =>
    rw [automatonReport_of_eq_none hg, automatonReport_of_eq_none hg]
    exact ⟨hheading, rfl⟩
  | some g =>
    rw [automatonReport_of_eq_some hg, automatonReport_of_eq_some hg]
    have hgrammar := hheading.append (keeps_equivalentGrammar hA h hg)
    have hanswers := (hgrammar.append (keeps_classification g)).append (leaves_checkReport hA h hc)
    exact ⟨hanswers.append (leaves_determinizationReport hA h hc), rfl⟩

theorem leaves_runAutomaton {file : String} {loaded : Except Error (Automaton String)}
    (hfile : Text.IsOneLine file) (hc : ∀ input, input ∈ checks → Text.IsOneLine input)
    (hloaded : ∀ A, loaded = .ok A → A.IsValid ∧ A.IsOneLined) :
    Text.Leaves eventMark (runAutomaton .console file loaded checks).output
        (runAutomaton .noop file loaded checks).output ∧
      (runAutomaton .console file loaded checks).exitCode =
        (runAutomaton .noop file loaded checks).exitCode := by
  have hhead : Text.Keeps eventMark s!"Loading automaton from {file}...\n" := by
    have hp : Text.Begins eventMark "Loading automaton from " := by decide
    have hline := ((hp.append hfile).append (s := "...") (by decide)).keeps
    rw [String.append_assoc] at hline
    exact hline
  cases loaded with
  | error e => exact ⟨hhead, rfl⟩
  | ok A =>
    rcases hloaded A rfl with ⟨hA, h⟩
    rcases leaves_automatonReport hA h hc with ⟨hreport, hcomplete⟩
    unfold runAutomaton
    dsimp only
    unfold Outcome.ofReport
    rw [hcomplete]
    exact ⟨hhead.append hreport, rfl⟩

/--
For every command about an automaton in which no line feed stands, the option `--trace` just adds
lines that begin with four blanks and a dot: without them the output is what the program prints when
it prints no events, and it ends in the same way.
-/
theorem withoutMarked_run_trace {off : List String} {file : String} {files : Files}
    (harguments : Invocation.ofArguments? off = some ⟨false, .automaton file checks⟩)
    (hfile : Text.IsOneLine file) (hc : ∀ input, input ∈ checks → Text.IsOneLine input)
    (h : ∀ A, files.loadAutomaton file = .ok A → A.IsOneLined) :
    Invocation.ofArguments? ("--trace" :: off) = some ⟨true, .automaton file checks⟩ ∧
      ∀ on, Invocation.ofArguments? on = some ⟨true, .automaton file checks⟩ →
        ∀ source source',
          Text.withoutMarked eventMark (run on files source).output =
              (run off files source').output ∧
            (run on files source).exitCode = (run off files source').exitCode := by
  refine ⟨ofArguments?_trace harguments, ?_⟩
  intro on hon source source'
  have hoff : run off files source' =
      runAutomaton .noop file (files.loadAutomaton file) checks := by
    unfold run
    rw [harguments]
    rfl
  have hrun : run on files source =
      runAutomaton .console file (files.loadAutomaton file) checks := by
    unfold run
    rw [hon]
    rfl
  rw [hoff, hrun]
  have hloaded (A : Automaton String) (hA : files.loadAutomaton file = .ok A) :
      A.IsValid ∧ A.IsOneLined := ⟨files.isValid_of_loadAutomaton hA, h A hA⟩
  rcases leaves_runAutomaton hfile hc hloaded with ⟨houtput, hcode⟩
  exact ⟨houtput.withoutMarked_eq, hcode⟩

def disguised : Automaton String where
  states := .ofList ["    · p", "q"]
  alphabet := .ofList [' ', '·']
  transitions := .ofTriples [("    · p", ' ', "    · p"), ("    · p", ' ', "q")]
  initial := "    · p"
  finals := .singleton "q"

theorem isValid_disguised : disguised.IsValid := by
  apply Automaton.isValid_of_checked (A := disguised)
  rfl

theorem isOneLined_disguised : disguised.IsOneLined := by
  have hstates : ∀ q, q ∈ disguised.states.toList → Text.IsOneLine (toString q) := by decide
  refine ⟨hstates, ?_⟩
  rw [← FinSet.contains_eq_false_iff]
  decide

def disguisedFiles : Files := fun _ =>
  some (String.ofList (Automaton.Definition.ofAutomaton disguised).toJson.pretty).toUTF8

theorem withoutMarked_run_trace_disguised :
    let off := ["automaton", "--check=", "--check=  ·", "--", "file"]
    Text.withoutMarked eventMark (run ("--trace" :: off) disguisedFiles ⟨[], 0⟩).output =
        (run off disguisedFiles ⟨[], 0⟩).output ∧
      (run ("--trace" :: off) disguisedFiles ⟨[], 0⟩).exitCode =
        (run off disguisedFiles ⟨[], 0⟩).exitCode := by
  intro off
  have hload : disguisedFiles.loadAutomaton "file" = .ok disguised :=
    Files.loadAutomaton_eq isValid_disguised rfl
  have hloaded (A : Automaton String) (hA : disguisedFiles.loadAutomaton "file" = .ok A) :
      A.IsOneLined := by
    rw [hload, Except.ok.injEq] at hA
    exact hA ▸ isOneLined_disguised
  have harguments := @ofArguments?_automaton ["", "  ·"] "file" (by decide)
  rcases withoutMarked_run_trace harguments (by decide) (by decide) hloaded with ⟨hargs, hon⟩
  exact hon _ hargs _ _

end CommandLine

end RegLang
