import RegLang.Proofs.Conversion.Validity

/-!
This module contains the languages of converted devices: any number of conversions, one after the
other, keep the language. Each of them makes a device that the next one loses nothing of, since
grammars of automata have the shapes `ε`, `a` and `aB` only.
-/

namespace RegLang

namespace Device

variable {d e : Device} {c : Conversion} {steps : List Conversion} {w : List Char}

def IsRegular : Device → Prop
  | automaton A => A.IsValid
  | grammar g => g.IsValid ∧ g.IsRightLinear

theorem IsRegular.isValid (hd : d.IsRegular) : d.IsValid := by
  cases d with
  | automaton A => exact hd
  | grammar g => exact hd.1

theorem IsRegular.of_converts (hd : d.IsRegular) (h : d.Converts e) : e.IsRegular := by
  cases h with
  | determinize A keepSink => exact Automaton.isValid_determinize hd
  | toGrammar hg =>
    rcases Automaton.exists_isGrammarOf hd hg with ⟨names, hnames⟩
    exact ⟨hnames.isValid hd, hnames.isRightLinear⟩
  | toAutomaton g => exact hd.1.toAutomaton

theorem IsRegular.recognizes_of_converts (hd : d.IsRegular) (h : d.Converts e) :
    e.Recognizes w ↔ d.Recognizes w := by
  cases h with
  | determinize A keepSink => exact Bool.eq_iff_iff.mp (Automaton.accepts_determinize hd)
  | toGrammar hg =>
    rcases Automaton.exists_isGrammarOf hd hg with ⟨names, hnames⟩
    exact hnames.generates_iff_accepts hd
  | toAutomaton g => exact hd.2.accepts_toAutomaton_iff_generates

theorem IsValid.exists_convert?_iff (hd : d.IsValid) :
    (∃ e, d.convert? c = some e) ↔ d.Admits c := by
  cases d with
  | automaton A =>
    cases c with
    | toDfa => exact iff_of_true ⟨_, rfl⟩ trivial
    | toCompleteDfa => exact iff_of_true ⟨_, rfl⟩ trivial
    | toGrammar =>
      refine Iff.trans ?_ (Automaton.exists_toGrammar?_iff hd)
      constructor
      · rintro ⟨e, h⟩
        rcases convert?_toGrammar.mp h with ⟨g, hg, _⟩
        exact ⟨g, hg⟩
      · rintro ⟨g, hg⟩
        exact ⟨grammar g, convert?_toGrammar.mpr ⟨g, hg, rfl⟩⟩
    | toAutomaton => exact iff_of_false nofun id
  | grammar g =>
    cases c with
    | toAutomaton => exact iff_of_true ⟨_, rfl⟩ trivial
    | toDfa => exact iff_of_false nofun id
    | toCompleteDfa => exact iff_of_false nofun id
    | toGrammar => exact iff_of_false nofun id

theorem convertAll?_nil : d.convertAll? [] = some e ↔ d = e := by
  unfold convertAll?
  rw [List.foldlM_nil]
  exact Option.some_inj

theorem convertAll?_cons :
    d.convertAll? (c :: steps) = some e ↔
      ∃ d', d.convert? c = some d' ∧ d'.convertAll? steps = some e := by
  unfold convertAll?
  rw [List.foldlM_cons]
  exact Option.bind_eq_some_iff

theorem IsValid.exists_convertAll?_iff (hd : d.IsValid) :
    (∃ e, d.convertAll? steps = some e) ↔ d.AdmitsAll steps := by
  induction steps generalizing d with
  | nil => exact iff_of_true ⟨d, convertAll?_nil.mpr rfl⟩ trivial
  | cons c steps ih =>
    unfold AdmitsAll
    rw [← hd.exists_convert?_iff]
    simp only [convertAll?_cons]
    constructor
    · rintro ⟨e, d', h, hsteps⟩
      refine ⟨⟨d', h⟩, ?_⟩
      intro d'' h'
      rw [h] at h'
      cases h'
      exact (ih (hd.of_converts (converts_of_convert? h))).mp ⟨e, hsteps⟩
    · rintro ⟨⟨d', h⟩, hadmits⟩
      rcases (ih (hd.of_converts (converts_of_convert? h))).mpr (hadmits d' h) with ⟨e, hsteps⟩
      exact ⟨e, d', h, hsteps⟩

theorem IsRegular.of_convertAll? (hd : d.IsRegular) (h : d.convertAll? steps = some e) :
    e.IsRegular ∧ ∀ w, e.Recognizes w ↔ d.Recognizes w := by
  induction steps generalizing d with
  | nil =>
    cases convertAll?_nil.mp h
    exact ⟨hd, fun _ => Iff.rfl⟩
  | cons c steps ih =>
    rcases convertAll?_cons.mp h with ⟨d', h, hsteps⟩
    have hc : d.Converts d' := converts_of_convert? h
    rcases ih (hd.of_converts hc) hsteps with ⟨he, hw⟩
    refine ⟨he, ?_⟩
    intro w
    rw [hw w, hd.recognizes_of_converts hc]

theorem recognizes_convertAll? (hd : d.IsRegular) (steps : List Conversion) :
    (d.AdmitsAll steps → ∃ e, d.convertAll? steps = some e ∧ e.IsRegular ∧
      ∀ w, e.Recognizes w ↔ d.Recognizes w) ∧
    (¬ d.AdmitsAll steps → d.convertAll? steps = none) := by
  rw [← hd.isValid.exists_convertAll?_iff]
  constructor
  · rintro ⟨e, he⟩
    exact ⟨e, he, hd.of_convertAll? he⟩
  · intro h
    exact Option.eq_none_iff_forall_ne_some.mpr fun e he => h ⟨e, he⟩

theorem recognizes_convertAll?_alternating :
    (grammar .alternating).IsRegular ∧
      (grammar .alternating).AdmitsAll
        [.toAutomaton, .toDfa, .toGrammar, .toAutomaton, .toCompleteDfa] ∧
      ∃ e, (grammar .alternating).convertAll?
          [.toAutomaton, .toDfa, .toGrammar, .toAutomaton, .toCompleteDfa] = some e ∧
        e.IsRegular ∧ ∀ w, e.Recognizes w ↔ (grammar .alternating).Recognizes w := by
  have hd : (grammar .alternating).IsRegular :=
    ⟨Grammar.isValid_alternating, Grammar.isRightLinear_of_regular (by decide)⟩
  have hadmits : (grammar .alternating).AdmitsAll
      [.toAutomaton, .toDfa, .toGrammar, .toAutomaton, .toCompleteDfa] := by
    refine ⟨trivial, ?_⟩
    intro d h
    cases h
    refine ⟨trivial, ?_⟩
    intro d h
    cases h
    refine ⟨size_toDfa_alternating_le, ?_⟩
    intro d h
    rcases convert?_toGrammar.mp h with ⟨g, _, h⟩
    cases h
    refine ⟨trivial, ?_⟩
    intro d h
    cases h
    exact ⟨trivial, fun _ _ => trivial⟩
  exact ⟨hd, hadmits, (recognizes_convertAll? hd _).1 hadmits⟩

end Device

end RegLang
