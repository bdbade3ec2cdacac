import RegLang.Proofs.Automaton.ToGrammar
import RegLang.Proofs.Grammar.Generation

/-!
This module contains what the grammar of an automaton generates: the words of paths from the initial
state. A path ends in a final state or, if the generation meets a dead end, in a dead state.
-/

namespace RegLang

namespace Automaton

variable {σ : Type} [Ordered σ] {A : Automaton σ} {names : FinMap σ Char} {g : Grammar} {q : σ}
  {c : Char} {depth : Nat} {source : WordSource} {w : List Char}

def IsDead (A : Automaton σ) (q : σ) : Prop := ¬ q ∈ A.finals ∧ A.canMove q = false

namespace IsGrammarOf

variable (h : A.IsGrammarOf names g)

include h

theorem withMaxDepth (depth : Nat) : A.IsGrammarOf names (g.withMaxDepth depth) where
  isNaming := h.isNaming
  start := h.start
  terminals := h.terminals
  nonTerminals := h.nonTerminals
  productions := h.productions

theorem productionsFor_name (hq : names.get? q = some c) :
    g.productionsFor c = A.stateProductions names q := by
  unfold Grammar.productionsFor
  rw [(h.productions c _).mpr ⟨q, hq, rfl⟩]
  rfl

theorem isDead_of_productionsFor_eq_nil (hA : A.IsValid) (hq : names.get? q = some c)
    (hc : g.productionsFor c = []) : A.IsDead q := by
  rw [h.productionsFor_name hq] at hc
  constructor
  · intro hf
    have hp : .epsilon ∈ A.stateProductions names q := epsilon_mem_stateProductions.mpr hf
    rw [hc] at hp
    cases hp
  · rw [Bool.eq_false_iff]
    intro hm
    rcases hA.canMove_iff.mp hm with ⟨a, t, e⟩
    rcases h.isNaming.exists_name t (hA.target_mem q a t e) with ⟨B, hB⟩
    by_cases hf : t ∈ A.finals
    · have hp : .letter a ∈ A.stateProductions names q :=
        letter_mem_stateProductions.mpr ⟨t, e, hf⟩
      rw [hc] at hp
      cases hp
    · have hp : .step a B ∈ A.stateProductions names q :=
        step_mem_stateProductions.mpr ⟨t, e, fun ht => absurd ht hf, hB⟩
      rw [hc] at hp
      cases hp

theorem exists_path_of_expand (hA : A.IsValid) (hq : names.get? q = some c)
    (hr : (g.expand depth c source).completed = true) :
    ∃ t, A.Path q (g.expand depth c source).text t ∧
      (t ∈ A.finals ∧ (∀ d, ¬ .deadEnd d ∈ (g.expand depth c source).expansions) ∨
        A.IsDead t ∧ ∃ d, .deadEnd d ∈ (g.expand depth c source).expansions) := by
  induction depth generalizing q c source with
  | zero => cases hr
  | succ depth ih =>
    rcases Grammar.expand_succ_cases g c source with ⟨hps, hexpand⟩ | ⟨p, next, hp, hexpand⟩
    · rw [hexpand]
      refine ⟨q, .nil q, .inr ⟨?_, c, List.mem_cons_self⟩⟩
      exact h.isDead_of_productionsFor_eq_nil hA hq hps
    · rw [hexpand] at hr ⊢
      rw [h.mem_productionsFor_name hq] at hp
      rcases Production.exists_of_shape_ne_other (shape_ne_other_of_mem_stateProductions hp)
        with e | ⟨a, e⟩ | ⟨a, B, e⟩
      · subst e
        rw [epsilon_mem_stateProductions] at hp
        exact ⟨q, .nil q, .inl ⟨hp, by simp [Grammar.Generation.ofSymbols_epsilon]⟩⟩
      · subst e
        rcases letter_mem_stateProductions.mp hp with ⟨t, e, hf⟩
        exact ⟨t, .cons e (.nil t), .inl ⟨hf, by simp [Grammar.Generation.ofSymbols_letter]⟩⟩
      · subst e
        rcases step_mem_stateProductions.mp hp with ⟨r, e, _, hB⟩
        rw [Grammar.Generation.ofSymbols_step] at hr ⊢
        rcases ih hB hr with ⟨t, hpath, ht⟩
        refine ⟨t, .cons e hpath, ?_⟩
        simpa using ht

end IsGrammarOf

/--
A generated word is accepted, unless a dead end was met. Then the word leads to a state that is not
final and has no transition.
-/
theorem exists_toGrammar?_accepts_of_generate (hA : A.IsValid)
    (hn : A.states.size ≤ A.freeLetters.length) :
    ∃ g, A.toGrammar? = some g ∧ ∀ depth source w,
      let limited := g.withMaxDepth depth
      let events := limited.generationEvents (limited.generation source)
      limited.generate source = .ok w →
        ((∀ c, ¬ .deadEnd c ∈ events) → A.accepts w = true) ∧
          ((∃ c, .deadEnd c ∈ events) →
            ∃ q, A.Path A.initial w q ∧ ¬ q ∈ A.finals ∧ A.canMove q = false) := by
  rcases exists_toGrammar? hA hn with ⟨g, hg⟩
  rcases exists_isGrammarOf hA hg with ⟨names, h⟩
  refine ⟨g, hg, ?_⟩
  intro depth source w limited events hw
  have hlimited : A.IsGrammarOf names limited := h.withMaxDepth depth
  rcases Grammar.generate_eq_ok_iff.mp hw with ⟨hcompleted, htext⟩
  rcases hlimited.exists_path_of_expand hA hlimited.start hcompleted with ⟨t, hpath, ht⟩
  have hpath : A.Path A.initial w t := htext ▸ hpath
  simp only [events, Grammar.deadEnd_mem_generationEvents]
  rcases ht with ⟨hf, hnone⟩ | ⟨hdead, d, hd⟩
  · refine ⟨fun _ => accepts_iff_hasAcceptingPath.mpr ⟨t, hpath, hf⟩, ?_⟩
    rintro ⟨d, hd⟩
    exact absurd hd (hnone d)
  · exact ⟨fun hnone => absurd hd (hnone d), fun _ => ⟨t, hpath, hdead⟩⟩

theorem exists_toGrammar?_accepts_of_generate_deadEnded :
    deadEnded.IsValid ∧ deadEnded.states.size ≤ deadEnded.freeLetters.length ∧
      ∃ g, deadEnded.toGrammar? = some g ∧ ∀ depth source w,
        let limited := g.withMaxDepth depth
        let events := limited.generationEvents (limited.generation source)
        limited.generate source = .ok w →
          ((∀ c, ¬ .deadEnd c ∈ events) → deadEnded.accepts w = true) ∧
            ((∃ c, .deadEnd c ∈ events) →
              ∃ q, deadEnded.Path deadEnded.initial w q ∧ ¬ q ∈ deadEnded.finals ∧
                deadEnded.canMove q = false) :=
  ⟨isValid_deadEnded, size_deadEnded_le,
    exists_toGrammar?_accepts_of_generate isValid_deadEnded size_deadEnded_le⟩

def futile : Automaton Int where
  states := .ofList [0, 1]
  alphabet := .singleton 'a'
  transitions := .ofTriples [(0, 'a', 1)]
  initial := 0
  finals := .empty

theorem isValid_futile : futile.IsValid := by
  apply isValid_of_checked (A := futile)
  rfl

theorem size_futile_le : futile.states.size ≤ futile.freeLetters.length := by
  apply Nat.le_trans _ length_free_capitals_le
  decide

theorem exists_toGrammar?_generate_rejected :
    futile.IsValid ∧ futile.states.size ≤ futile.freeLetters.length ∧
      ∃ g, futile.toGrammar? = some g ∧ (g.withMaxDepth 2).generate ⟨[], 0⟩ = .ok ['a'] ∧
        futile.accepts ['a'] = false := by
  refine ⟨isValid_futile, size_futile_le, ?_⟩
  rcases exists_toGrammar? isValid_futile size_futile_le with ⟨g, hg⟩
  rcases exists_isGrammarOf isValid_futile hg with ⟨names, h⟩
  rcases h.isNaming.exists_name 1 (FinSet.contains_iff.mp rfl) with ⟨B, hB⟩
  have hstart : (g.withMaxDepth 2).productionsFor g.start = [.step 'a' B] := by
    rw [(h.withMaxDepth 2).productionsFor_name h.start]
    have hrow : (futile.transitions.get? futile.initial).getD .empty =
        ⟨[('a', .singleton 1)], List.pairwise_singleton _ _⟩ := rfl
    have hmoves : futile.transitionProductions names 'a' 1 = [.step 'a' B] := by
      unfold transitionProductions
      rw [hB]
      rfl
    unfold stateProductions
    rw [hrow]
    simp only [FinSet.singleton, List.flatMap_cons, List.flatMap_nil, hmoves]
    rfl
  have hnext : (g.withMaxDepth 2).productionsFor B = [] := by
    rw [(h.withMaxDepth 2).productionsFor_name hB]
    rfl
  refine ⟨g, hg, ?_, by decide⟩
  have hchoose : WordSource.choose ⟨[], 0⟩ ((g.withMaxDepth 2).productionsFor g.start) =
      (some (.step 'a' B), ⟨[], 1⟩) := by
    rw [hstart]
    rfl
  have hexpand : (g.withMaxDepth 2).expand 2 g.start ⟨[], 0⟩ =
      ⟨[.applied g.start (.step 'a' B), .deadEnd B], ['a'], ⟨[], 1⟩, true⟩ := by
    rw [Grammar.expand_succ_of_choose hchoose]
    rw [Grammar.Generation.ofSymbols_step, Grammar.expand_succ_of_nil hnext]
  rw [Grammar.generate_eq_ok_iff]
  exact ⟨congrArg Grammar.Generation.completed hexpand, congrArg Grammar.Generation.text hexpand⟩

end Automaton

end RegLang
