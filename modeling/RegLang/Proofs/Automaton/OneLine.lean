import RegLang.Proofs.Automaton.Nondeterminism
import RegLang.Proofs.Automaton.RunEvents
import RegLang.Proofs.Text.Line

/-!
This module contains automata whose states and symbols are written without line feeds. Their
deterministic automata are of this kind as well, and all that is told about them by events and by
reasons against determinism has one line each.
-/

namespace RegLang

theorem FinSet.isOneLine_names {α : Type} [Ordered α] [ToString α] {s : FinSet α}
    (h : ∀ a, a ∈ s → Text.IsOneLine (toString a)) : Text.IsOneLine (Text.braced s.names) := by
  apply Text.isOneLine_braced
  intro name hname
  rcases List.mem_map.mp hname with ⟨a, ha, e⟩
  rw [← e]
  exact h a ha

namespace Automaton

variable {σ : Type} [Ordered σ] [ToString σ] {A : Automaton σ} {s : FinSet σ} {w : List Char}
  {e : Event} {r : Nondeterminism σ}

structure IsOneLined (A : Automaton σ) : Prop where
  state : ∀ q, q ∈ A.states → Text.IsOneLine (toString q)
  lineFeed_not_mem : ¬ '\n' ∈ A.alphabet

namespace IsOneLined

variable (h : A.IsOneLined)

include h

theorem symbol {a : Char} (ha : a ∈ A.alphabet) : Text.IsOneLine (toString a) :=
  Text.isOneLine_toString fun e => h.lineFeed_not_mem (e ▸ ha)

theorem names (hs : ∀ q, q ∈ s → q ∈ A.states) : Text.IsOneLine (Text.braced s.names) :=
  FinSet.isOneLine_names fun q hq => h.state q (hs q hq)

theorem alphabet : Text.IsOneLine (Text.braced A.alphabet.names) :=
  FinSet.isOneLine_names fun _ ha => h.symbol ha

theorem discovered (hA : A.IsValid) {keepSink : Bool} (hs : A.Discovers keepSink s) :
    Text.IsOneLine (toString s) := h.names fun _ => hs.mem_states hA

theorem toDfa (hA : A.IsValid) : A.toDfa.IsOneLined where
  state _ hs := h.discovered hA ((mem_states_determinize hA).mp hs)
  lineFeed_not_mem := h.lineFeed_not_mem

theorem text_reason (hA : A.IsValid) (hr : A.nondeterminism? = some r) :
    Text.IsOneLine r.text := by
  have hstate : Text.IsOneLine "state " := by decide
  cases (nondeterminism?_eq_some_iff hA).mp hr with
  | multipleSuccessors hb _ htargets =>
    rcases hb with ⟨q, _, hq, _⟩
    rcases hA.mem_of_edge hq with ⟨hp, ha, _⟩
    have hs := h.names fun t ht => (hA.mem_of_edge ((htargets t).mp ht)).2.2
    have hhead := (hstate.append (h.state _ hp)).append (t := " has multiple transitions on '")
      (by decide)
    exact ((hhead.append (h.symbol ha)).append (by decide)).append hs
  | noTransitions _ hp _ => exact (hstate.append (h.state _ hp.1.1)).append (by decide)
  | missingTransition _ hp _ ha =>
    have hhead := (hstate.append (h.state _ hp.1.1)).append (t := " has no transition on '")
      (by decide)
    exact (hhead.append (h.symbol ha.1.1)).append (by decide)

theorem text_stepEvents (hA : A.IsValid) (hw : ¬ '\n' ∈ w) (hs : ∀ q, q ∈ s → q ∈ A.states)
    (he : e ∈ A.stepEvents (A.runFrom s w)) : Text.IsOneLine e.text := by
  induction w generalizing s with
  | nil =>
    cases List.mem_singleton.mp he
    have haccepted : Text.IsOneLine s!", accepted: {s.any A.isFinal}" := by
      cases s.any A.isFinal <;> decide
    have hhead := Text.IsOneLine.append (s := "ended at ") (by decide) (h.names hs)
    exact hhead.append haccepted
  | cons a w ih =>
    rw [List.mem_cons, not_or] at hw
    have ha := Text.isOneLine_toString (Ne.symm hw.1)
    by_cases hstep : A.step s a = .empty
    · rw [runFrom_cons_of_eq_empty hstep] at he
      cases List.mem_singleton.mp he
      have hhead := Text.IsOneLine.append (s := "no transition on '") (by decide) ha
      exact (hhead.append (t := "' from ") (by decide)).append (h.names hs)
    · rw [runFrom_cons_of_ne_empty hstep, stepEvents, start_runFrom, List.mem_cons] at he
      -- A run goes on from states of the automaton, whatever the symbol is.
      have hnext (q : σ) (hq : q ∈ A.step s a) : q ∈ A.states := mem_states_of_mem_step hA hq
      rcases he with he | he
      · cases he
        have harrow := (Text.IsOneLine.append (s := " --") (by decide) ha).append (t := "--> ")
          (by decide)
        exact ((h.names hs).append harrow).append (h.names hnext)
      · exact ih hw.2 hnext he

theorem text_runEvents (hA : A.IsValid) (hw : ¬ '\n' ∈ w) (he : e ∈ A.runEvents w) :
    Text.IsOneLine e.text := by
  have hs (q : σ) (hq : q ∈ FinSet.singleton A.initial) : q ∈ A.states :=
    FinSet.mem_singleton.mp hq ▸ hA.initial_mem
  unfold runEvents run at he
  dsimp only at he
  rw [start_runFrom, List.mem_cons] at he
  rcases he with he | he
  · cases he
    have hhead := Text.IsOneLine.append (s := "checking '") (by decide) (Text.isOneLine_ofList hw)
    exact (hhead.append (t := "' from ") (by decide)).append (h.names hs)
  · exact h.text_stepEvents hA hw hs he

theorem text_subsetEvents (hA : A.IsValid) (he : e ∈ A.subsetEvents) :
    Text.IsOneLine e.text := by
  rcases List.mem_flatMap.mp he with ⟨v, hv, he⟩
  rcases (mem_visits_explore hA).mp hv with ⟨hd, hvisit⟩
  have hs := h.discovered hA hd
  rcases List.mem_cons.mp he with he | he
  · subst he
    have hstate := Text.IsOneLine.append (s := "new DFA state ") (by decide) hs
    cases v.state.any A.isFinal with
    | true => exact hstate.append (by decide)
    | false => exact hstate
  · rcases List.mem_map.mp he with ⟨⟨a, t⟩, hm, he⟩
    subst he
    rw [hvisit] at hm
    have ha := h.symbol (mem_moves_visit.mp hm).1
    have hsource := Text.IsOneLine.append (s := "δ(") (by decide) hs
    have hsymbol := (hsource.append (t := ", ") (by decide)).append ha
    exact (hsymbol.append (t := ") = ") (by decide)).append (h.discovered hA (hd.move hm))

end IsOneLined

end Automaton

end RegLang
