import RegLang.Automaton.ToGrammar
import RegLang.Proofs.Automaton.Edge
import RegLang.Proofs.Automaton.Membership
import RegLang.Proofs.Automaton.Naming
import RegLang.Proofs.Grammar.Derivation

/-!
This module contains the productions, the validity and the language of the grammar that an automaton
is converted to.
-/

namespace RegLang

namespace Automaton

variable {σ : Type} [Ordered σ] {A : Automaton σ} {names : FinMap σ Char} {g : Grammar} {q t : σ}
  {a c : Char} {p : Production} {w : List Char}

theorem mem_transitionProductions :
    p ∈ A.transitionProductions names a t ↔
      t ∈ A.finals ∧ p = .letter a ∨
        (t ∈ A.finals → A.canMove t = true) ∧ ∃ B, names.get? t = some B ∧ p = .step a B := by
  unfold transitionProductions isFinal
  rw [List.mem_append]
  by_cases hf : t ∈ A.finals <;> cases hm : A.canMove t <;> simp [hf, eq_comm (a := p)]

theorem mem_stateProductions :
    p ∈ A.stateProductions names q ↔
      (∃ a t, A.Edge q a t ∧ p ∈ A.transitionProductions names a t) ∨
        p = .epsilon ∧ q ∈ A.finals := by
  unfold stateProductions isFinal
  rw [List.mem_eraseDups, List.mem_append]
  simp only [List.mem_flatMap, Prod.exists, FinMap.mem_entries, get?_getD_eq_successors?,
    FinSet.mem_toList]
  apply or_congr
  · constructor
    · rintro ⟨a, targets, hs, t, ht, hp⟩
      exact ⟨a, t, ⟨targets, hs, ht⟩, hp⟩
    · rintro ⟨a, t, ⟨targets, hs, ht⟩, hp⟩
      exact ⟨a, targets, hs, t, ht, hp⟩
  · by_cases hf : q ∈ A.finals <;> simp [hf]

theorem epsilon_mem_stateProductions :
    .epsilon ∈ A.stateProductions names q ↔ q ∈ A.finals := by
  simp [mem_stateProductions, mem_transitionProductions, Production.epsilon, Production.letter,
    Production.step]

theorem letter_mem_stateProductions :
    .letter a ∈ A.stateProductions names q ↔ ∃ t, A.Edge q a t ∧ t ∈ A.finals := by
  simp only [mem_stateProductions, mem_transitionProductions, Production.epsilon,
    Production.letter, Production.step]
  simp

theorem step_mem_stateProductions {B : Char} :
    .step a B ∈ A.stateProductions names q ↔
      ∃ t, A.Edge q a t ∧ (t ∈ A.finals → A.canMove t = true) ∧ names.get? t = some B := by
  simp only [mem_stateProductions, mem_transitionProductions, Production.epsilon,
    Production.letter, Production.step]
  simp

theorem shape_ne_other_of_mem_stateProductions (h : p ∈ A.stateProductions names q) :
    p.shape ≠ .other := by
  rw [mem_stateProductions] at h
  rcases h with ⟨a, t, _, h⟩ | ⟨h, _⟩
  · rcases mem_transitionProductions.mp h with ⟨_, h⟩ | ⟨_, B, _, h⟩
    · rw [h]
      nofun
    · rw [h]
      nofun
  · rw [h]
    nofun

structure IsGrammarOf (A : Automaton σ) (names : FinMap σ Char) (g : Grammar) : Prop where
  isNaming : A.IsNaming names
  start : names.get? A.initial = some g.start
  terminals : g.terminals = A.alphabet
  nonTerminals : ∀ c, c ∈ g.nonTerminals ↔ ∃ q, names.get? q = some c
  productions : ∀ c ps, g.productions.get? c = some ps ↔
    ∃ q, names.get? q = some c ∧ ps = A.stateProductions names q

theorem toGrammar?_eq_some_iff :
    A.toGrammar? = some g ↔ ∃ names start, A.stateNames? = some names ∧
      names.get? A.initial = some start ∧
        { nonTerminals := .ofList names.values
          terminals := A.alphabet
          productions := .ofList (names.entries.map fun e => (e.2, A.stateProductions names e.1))
          start := start } = g := by
  unfold toGrammar?
  simp only [bind, Option.bind_eq_some_iff, pure, Option.some.injEq]
  constructor
  · rintro ⟨names, hn, start, hs, hg⟩
    exact ⟨names, start, hn, hs, hg⟩
  · rintro ⟨names, start, hn, hs, hg⟩
    exact ⟨names, hn, start, hs, hg⟩

theorem IsNaming.nodup_values (h : A.IsNaming names) :
    (names.entries.map Prod.snd).Nodup := by
  rw [List.Nodup, List.pairwise_map]
  apply names.increasing.imp_of_mem
  rintro ⟨p, c⟩ ⟨q, d⟩ hp hq hlt hcd
  rw [FinMap.mem_entries] at hp hq
  dsimp only at hcd
  rw [hcd] at hp
  exact Ordered.ne_of_lt hlt (h.injective p q d hp hq)

theorem exists_isGrammarOf (hA : A.IsValid) (hg : A.toGrammar? = some g) :
    ∃ names, A.IsGrammarOf names g := by
  rcases toGrammar?_eq_some_iff.mp hg with ⟨names, start, hn, hs, hg⟩
  have hnames := isNaming_of_stateNames? hA hn
  subst hg
  refine ⟨names, hnames, hs, rfl, ?_, ?_⟩
  · intro c
    rw [FinSet.mem_ofList, FinMap.mem_values]
  · intro c ps
    -- The keys are the names, which are given only once.
    have hkeys : ((names.entries.map fun e => (e.2, A.stateProductions names e.1)).map
        Prod.fst).Nodup := by
      rw [List.map_map]
      exact hnames.nodup_values
    rw [FinMap.get?_ofList_eq_some_iff hkeys, List.mem_map]
    constructor
    · rintro ⟨e, he, h⟩
      cases h
      exact ⟨e.1, FinMap.mem_entries.mp he, rfl⟩
    · rintro ⟨q, hq, h⟩
      exact ⟨(q, c), FinMap.mem_entries.mpr hq, by rw [h]⟩

theorem exists_toGrammar?_iff (hA : A.IsValid) :
    (∃ g, A.toGrammar? = some g) ↔ A.states.size ≤ A.freeLetters.length := by
  rw [← exists_stateNames?_iff hA]
  constructor
  · rintro ⟨g, hg⟩
    rcases toGrammar?_eq_some_iff.mp hg with ⟨names, _, hnames, _⟩
    exact ⟨names, hnames⟩
  · rintro ⟨names, hnames⟩
    rcases (isNaming_of_stateNames? hA hnames).exists_name _ hA.initial_mem with ⟨start, hs⟩
    exact ⟨_, toGrammar?_eq_some_iff.mpr ⟨names, start, hnames, hs, rfl⟩⟩

theorem exists_toGrammar? (hA : A.IsValid) (hn : A.states.size ≤ A.freeLetters.length) :
    ∃ g, A.toGrammar? = some g := (exists_toGrammar?_iff hA).mpr hn

theorem canMove_of_leadsToFinal_cons (h : A.LeadsToFinal q (a :: w)) : A.canMove q = true := by
  rcases leadsToFinal_cons.mp h with ⟨t, e, _⟩
  exact canMove_of_edge e

namespace IsGrammarOf

variable (h : A.IsGrammarOf names g)

include h

theorem mem_productionsFor :
    p ∈ g.productionsFor c ↔ ∃ q, names.get? q = some c ∧ p ∈ A.stateProductions names q := by
  rw [Grammar.mem_productionsFor]
  simp only [h.productions]
  constructor
  · rintro ⟨_, ⟨q, hq, e⟩, hp⟩
    exact ⟨q, hq, e ▸ hp⟩
  · rintro ⟨q, hq, hp⟩
    exact ⟨_, ⟨q, hq, rfl⟩, hp⟩

theorem mem_productionsFor_name (hq : names.get? q = some c) :
    p ∈ g.productionsFor c ↔ p ∈ A.stateProductions names q := by
  rw [h.mem_productionsFor]
  constructor
  · rintro ⟨r, hr, hp⟩
    rw [h.isNaming.injective q r c hq hr]
    exact hp
  · intro hp
    exact ⟨q, hq, hp⟩

theorem isRightLinear : g.IsRightLinear := by
  intro c p hp
  rcases h.mem_productionsFor.mp hp with ⟨q, _, hp⟩
  exact shape_ne_other_of_mem_stateProductions hp

theorem mem_freeLetters_of_mem_nonTerminals (hc : c ∈ g.nonTerminals) : c ∈ A.freeLetters := by
  rcases (h.nonTerminals c).mp hc with ⟨q, hq⟩
  exact h.isNaming.free q c hq

theorem declares_of_mem_transitionProductions (hA : A.IsValid) {s : Symbol}
    (e : A.Edge q a t) (hp : p ∈ A.transitionProductions names a t) (hs : s ∈ p.symbols) :
    g.Declares s := by
  have ha : g.Declares (.terminal a) := by
    unfold Grammar.Declares
    rw [h.terminals]
    exact (hA.mem_of_edge e).2.1
  rcases mem_transitionProductions.mp hp with ⟨_, hp⟩ | ⟨_, B, hB, hp⟩
  · rw [hp, Production.letter, List.mem_singleton] at hs
    rw [hs]
    exact ha
  · rw [hp, Production.step, List.mem_cons, List.mem_singleton] at hs
    rcases hs with hs | hs
    · rw [hs]
      exact ha
    · rw [hs]
      exact (h.nonTerminals B).mpr ⟨t, hB⟩

theorem isValid (hA : A.IsValid) : g.IsValid where
  epsilon_not_mem_nonTerminals hε :=
    (mem_freeLetters.mp (h.mem_freeLetters_of_mem_nonTerminals hε)).2.2 rfl
  epsilon_not_mem_terminals := h.terminals ▸ hA.epsilon_not_mem
  disjoint c hc := h.terminals ▸ (mem_freeLetters.mp (h.mem_freeLetters_of_mem_nonTerminals hc)).2.1
  start_mem := (h.nonTerminals _).mpr ⟨_, h.start⟩
  lhs_mem A ps hps := by
    rcases (h.productions A ps).mp hps with ⟨q, hq, _⟩
    exact (h.nonTerminals A).mpr ⟨q, hq⟩
  declares B p s hp hs := by
    rcases h.mem_productionsFor.mp hp with ⟨q, _, hp⟩
    rcases mem_stateProductions.mp hp with ⟨a, t, e, hp⟩ | ⟨hp, _⟩
    · exact h.declares_of_mem_transitionProductions hA e hp hs
    · subst hp
      cases hs

theorem derives_iff_leadsToFinal (hA : A.IsValid) (hq : names.get? q = some c) :
    g.Derives [.nonTerminal c] (Symbol.ofWord w) ↔ A.LeadsToFinal q w := by
  induction w generalizing q c with
  | nil =>
    rw [h.isRightLinear.derives_nil_iff, h.mem_productionsFor_name hq,
      epsilon_mem_stateProductions, leadsToFinal_nil]
  | cons a w ih =>
    rw [h.isRightLinear.derives_cons_iff, leadsToFinal_cons]
    simp only [h.mem_productionsFor_name hq, letter_mem_stateProductions,
      step_mem_stateProductions]
    constructor
    · intro hd
      rcases hd with ⟨hw, t, e, hf⟩ | ⟨B, ⟨t, e, _, ht⟩, hd⟩
      · subst hw
        exact ⟨t, e, leadsToFinal_nil.mpr hf⟩
      · exact ⟨t, e, (ih ht).mp hd⟩
    · rintro ⟨t, e, hl⟩
      -- The last symbol is written by `a`, any other one by `aB`.
      cases w with
      | nil => exact .inl ⟨rfl, t, e, leadsToFinal_nil.mp hl⟩
      | cons b w =>
        rcases h.isNaming.exists_name t (hA.target_mem q a t e) with ⟨B, ht⟩
        right
        exact ⟨B, ⟨t, e, fun _ => canMove_of_leadsToFinal_cons hl, ht⟩, (ih ht).mpr hl⟩

theorem generates_iff_accepts (hA : A.IsValid) : g.Generates w ↔ A.accepts w = true := by
  rw [accepts_iff_leadsToFinal]
  exact h.derives_iff_leadsToFinal hA h.start

end IsGrammarOf

theorem exists_toGrammar?_generates_iff (hA : A.IsValid)
    (hn : A.states.size ≤ A.freeLetters.length) :
    ∃ g, A.toGrammar? = some g ∧ ∀ w, g.Generates w ↔ A.accepts w = true := by
  rcases exists_toGrammar? hA hn with ⟨g, hg⟩
  rcases exists_isGrammarOf hA hg with ⟨names, h⟩
  refine ⟨g, hg, ?_⟩
  intro w
  exact h.generates_iff_accepts hA

def deadEnded : Automaton Int where
  states := .ofList [0, 1, 2, 3]
  alphabet := .ofList ['S', 'a']
  transitions := .ofTriples
    [(0, 'S', 1), (0, 'a', 2), (0, 'a', 3), (1, 'S', 0), (1, 'S', 1), (1, 'a', 2)]
  initial := 0
  finals := .ofList [0, 2]

theorem isValid_deadEnded : deadEnded.IsValid := by
  apply isValid_of_checked (A := deadEnded)
  rfl

theorem size_deadEnded_le : deadEnded.states.size ≤ deadEnded.freeLetters.length := by
  apply Nat.le_trans _ length_free_capitals_le
  decide

theorem exists_toGrammar?_generates_iff_deadEnded :
    deadEnded.IsValid ∧ deadEnded.states.size ≤ deadEnded.freeLetters.length ∧
      ∃ g, deadEnded.toGrammar? = some g ∧
        ∀ w, g.Generates w ↔ deadEnded.accepts w = true :=
  ⟨isValid_deadEnded, size_deadEnded_le,
    exists_toGrammar?_generates_iff isValid_deadEnded size_deadEnded_le⟩

end Automaton

end RegLang
