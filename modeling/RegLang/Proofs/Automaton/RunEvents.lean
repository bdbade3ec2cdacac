import RegLang.Proofs.Automaton.Reached

/-!
This module contains what the events of a membership test tell: the sets of states that the prefixes
of the word lead to, up to the whole word or to the first prefix that leads to no state.
-/

namespace RegLang

namespace Automaton

variable {σ : Type} [Ordered σ] {A : Automaton σ} {states : FinSet σ} {a : Char} {u v w : List Char}

theorem runFrom_cons_of_eq_empty (h : A.step states a = .empty) :
    A.runFrom states (a :: w) = .stuck states a := by
  rw [runFrom, h]
  rfl

theorem runFrom_cons_of_ne_empty (h : A.step states a ≠ .empty) :
    A.runFrom states (a :: w) = .stepped states a (A.runFrom (A.step states a) w) := by
  rw [runFrom, FinSet.isEmpty_eq_false_iff.mpr h, if_neg Bool.false_ne_true]

theorem start_runFrom : (A.runFrom states w).start = states := by
  cases w with
  | nil => rfl
  | cons a w =>
    by_cases h : A.step states a = .empty
    · rw [runFrom_cons_of_eq_empty h]
      rfl
    · rw [runFrom_cons_of_ne_empty h]
      rfl

theorem reached_ne_empty_iff : A.reached w ≠ .empty ↔ ∃ q, A.Path A.initial w q := by
  rw [FinSet.ne_empty_iff]
  simp only [mem_reached]

theorem reached_eq_empty_iff : A.reached w = .empty ↔ ∀ q, ¬ A.Path A.initial w q := by
  rw [FinSet.eq_empty_iff]
  simp only [mem_reached]

theorem exists_path_of_isPrefix (hw : A.reached w ≠ .empty) (h : u <+: w) :
    ∃ q, A.Path A.initial u q := by
  rcases h with ⟨v, h⟩
  subst h
  rcases reached_ne_empty_iff.mp hw with ⟨r, hr⟩
  rcases path_append.mp hr with ⟨q, hq, _⟩
  exact ⟨q, hq⟩

theorem accepts_eq_false_of_isPrefix (hu : A.reached u = .empty) (h : u <+: w) :
    A.accepts w = false := by
  rw [accepts_eq_any]
  by_cases hw : A.reached w = .empty
  · rw [hw]
    rfl
  · rcases exists_path_of_isPrefix hw h with ⟨q, hq⟩
    exact absurd hq (reached_eq_empty_iff.mp hu q)

theorem statesAfter_ne_empty_or_exists (h : states ≠ .empty) :
    A.statesAfter states w ≠ .empty ∨ ∃ v a rest, w = v ++ a :: rest ∧
      A.statesAfter states v ≠ .empty ∧ A.step (A.statesAfter states v) a = .empty := by
  induction w generalizing states with
  | nil => exact .inl h
  | cons a w ih =>
    by_cases hstep : A.step states a = .empty
    · exact .inr ⟨[], a, w, rfl, h, hstep⟩
    · rcases ih hstep with hw | ⟨v, b, rest, hw, hv, hb⟩
      · exact .inl hw
      · exact .inr ⟨a :: v, b, rest, by rw [hw, List.cons_append], hv, hb⟩

theorem reached_ne_empty_or_exists (A : Automaton σ) (w : List Char) :
    A.reached w ≠ .empty ∨ ∃ v a rest, w = v ++ a :: rest ∧
      A.reached v ≠ .empty ∧ A.step (A.reached v) a = .empty := by
  apply statesAfter_ne_empty_or_exists
  rw [FinSet.ne_empty_iff]
  exact ⟨_, FinSet.mem_singleton.mpr rfl⟩

section Events

variable [ToString σ]

def steppedEvents (A : Automaton σ) (states : FinSet σ) (word : List Char) : List Event :=
  word.mapIdx fun i a =>
    .stepped a (A.statesAfter states (word.take i)).names
      (A.statesAfter states (word.take (i + 1))).names

theorem steppedEvents_cons :
    A.steppedEvents states (a :: w) =
      .stepped a states.names (A.step states a).names :: A.steppedEvents (A.step states a) w := by
  unfold steppedEvents
  rw [List.mapIdx_cons]
  rfl

theorem stepEvents_runFrom_append (h : A.statesAfter states v ≠ .empty) :
    A.stepEvents (A.runFrom states (v ++ w)) =
      A.steppedEvents states v ++ A.stepEvents (A.runFrom (A.statesAfter states v) w) := by
  induction v generalizing states with
  | nil => rfl
  | cons a v ih =>
    have hstep : A.step states a ≠ .empty := by
      intro he
      rw [statesAfter_cons, he, statesAfter_empty] at h
      exact h rfl
    rw [List.cons_append, runFrom_cons_of_ne_empty hstep, stepEvents, start_runFrom, ih h,
      steppedEvents_cons]
    rfl

theorem runEvents_append (h : A.reached v ≠ .empty) :
    A.runEvents (v ++ w) =
      .inputStarted (String.ofList (v ++ w)) [toString A.initial] ::
        A.steppedEvents (.singleton A.initial) v ++ A.stepEvents (A.runFrom (A.reached v) w) := by
  unfold runEvents run
  dsimp only
  rw [start_runFrom, stepEvents_runFrom_append h]
  rfl

theorem runEvents_eq_of_reached_ne_empty (h : A.reached w ≠ .empty) :
    A.runEvents w =
      .inputStarted (String.ofList w) [toString A.initial] ::
        A.steppedEvents (.singleton A.initial) w ++
          [.inputFinished (A.reached w).names (A.accepts w)] := by
  have hw := runEvents_append (w := []) h
  rw [List.append_nil] at hw
  rw [hw, accepts_eq_any]
  rfl

theorem runEvents_eq_of_step_reached_eq_empty (hv : A.reached v ≠ .empty)
    (ha : A.step (A.reached v) a = .empty) :
    A.runEvents (v ++ a :: w) =
      .inputStarted (String.ofList (v ++ a :: w)) [toString A.initial] ::
        A.steppedEvents (.singleton A.initial) v ++ [.stuck a (A.reached v).names] := by
  rw [runEvents_append hv, runFrom_cons_of_eq_empty ha]
  rfl

/--
The events of a membership test show the states that are possible before and after each symbol that
is read, which are the ends of the paths with the word read so far. They end with the symbol of the
first prefix without a path, if there is one, and then the word is rejected; otherwise they end with
the states after the whole word and with the answer.
-/
theorem runEvents_eq_stuck_or_eq_finished (A : Automaton σ) (w : List Char) :
    let started := Event.inputStarted (String.ofList w) [toString A.initial]
    let stepped (v : List Char) := v.mapIdx fun i a =>
      Event.stepped a (A.reached (v.take i)).names (A.reached (v.take (i + 1))).names
    (∀ v q, q ∈ A.reached v ↔ A.Path A.initial v q) ∧
      ((∃ v a, v ++ [a] <+: w ∧ (∀ u, u <+: v → ∃ q, A.Path A.initial u q) ∧
          (∀ q, ¬ A.Path A.initial (v ++ [a]) q) ∧
          A.runEvents w = started :: stepped v ++ [.stuck a (A.reached v).names] ∧
          A.accepts w = false) ∨
        (∀ u, u <+: w → ∃ q, A.Path A.initial u q) ∧
          A.runEvents w =
            started :: stepped w ++ [.inputFinished (A.reached w).names (A.accepts w)]) := by
  intro started stepped
  refine ⟨fun _ _ => mem_reached, ?_⟩
  rcases reached_ne_empty_or_exists A w with hw | ⟨v, a, rest, hw, hv, ha⟩
  · right
    constructor
    · intro u hu
      exact exists_path_of_isPrefix hw hu
    · exact runEvents_eq_of_reached_ne_empty hw
  · left
    have hreached : A.reached (v ++ [a]) = .empty := by
      rw [reached_append_singleton]
      exact ha
    have hprefix : v ++ [a] <+: w := by
      rw [hw]
      exact ⟨rest, List.append_assoc v [a] rest⟩
    refine ⟨v, a, hprefix, ?_, ?_, ?_, ?_⟩
    · intro u hu
      exact exists_path_of_isPrefix hv hu
    · exact reached_eq_empty_iff.mp hreached
    · unfold started
      rw [hw]
      exact runEvents_eq_of_step_reached_eq_empty hv ha
    · exact accepts_eq_false_of_isPrefix hreached hprefix

example : branching.runEvents ['a', 'b', 'a', 'b'] =
    [.inputStarted "abab" ["0"], .stepped 'a' ["0"] ["1"], .stepped 'b' ["1"] ["2"],
      .stuck 'a' ["2"]] := by
  decide

end Events

end Automaton

end RegLang
