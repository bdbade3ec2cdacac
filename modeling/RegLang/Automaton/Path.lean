import RegLang.Automaton.Run
import RegLang.Transitions.Lemmas

/-!
This module contains the edges and paths of automata, and the set of states that an automaton can
be in after a word. A state belongs to that set if and only if a path with the word leads to it.
-/

namespace RegLang

namespace Automaton

variable {σ : Type} [Ordered σ] {A : Automaton σ} {states : FinSet σ} {p q r : σ} {a : Char}
  {w v : List Char}

def Edge (A : Automaton σ) (source : σ) (symbol : Char) (target : σ) : Prop :=
  A.transitions.Holds source symbol target

inductive Path (A : Automaton σ) : σ → List Char → σ → Prop where
  | nil (p : σ) : Path A p [] p
  | cons {p q r : σ} {a : Char} {w : List Char} :
    A.Edge p a q → Path A q w r → Path A p (a :: w) r

def HasAcceptingPath (A : Automaton σ) (word : List Char) : Prop :=
  ∃ state, A.Path A.initial word state ∧ state ∈ A.finals

def statesAfter (A : Automaton σ) (states : FinSet σ) (word : List Char) : FinSet σ :=
  word.foldl A.step states

def reached (A : Automaton σ) (word : List Char) : FinSet σ :=
  A.statesAfter (.singleton A.initial) word

@[simp]
theorem path_nil : A.Path p [] q ↔ p = q :=
  ⟨fun h => by cases h; rfl, fun h => h ▸ .nil p⟩

theorem path_cons : A.Path p (a :: w) r ↔ ∃ q, A.Edge p a q ∧ A.Path q w r :=
  ⟨fun h => by cases h with | cons e h => exact ⟨_, e, h⟩, fun ⟨_, e, h⟩ => .cons e h⟩

theorem path_append : A.Path p (w ++ v) r ↔ ∃ q, A.Path p w q ∧ A.Path q v r := by
  induction w generalizing p with
  | nil => simp
  | cons a w ih =>
    simp only [List.cons_append, path_cons, ih]
    constructor
    · rintro ⟨s, e, q, hw, hv⟩
      exact ⟨q, ⟨s, e, hw⟩, hv⟩
    · rintro ⟨q, ⟨s, e, hw⟩, hv⟩
      exact ⟨s, e, q, hw, hv⟩

theorem mem_step : q ∈ A.step states a ↔ ∃ p, p ∈ states ∧ A.Edge p a q := by
  simp only [step, FinSet.mem_bind]
  exact exists_congr fun p => and_congr_right fun _ => Transitions.mem_successors_getD_iff

@[simp]
theorem statesAfter_nil : A.statesAfter states [] = states := rfl

@[simp]
theorem statesAfter_cons :
    A.statesAfter states (a :: w) = A.statesAfter (A.step states a) w := rfl

theorem mem_statesAfter : q ∈ A.statesAfter states w ↔ ∃ p, p ∈ states ∧ A.Path p w q := by
  induction w generalizing states with
  | nil => simp
  | cons a w ih =>
    simp only [statesAfter_cons, ih, mem_step, path_cons]
    constructor
    · rintro ⟨s, ⟨p, hp, e⟩, h⟩
      exact ⟨p, hp, s, e, h⟩
    · rintro ⟨p, hp, s, e, h⟩
      exact ⟨s, ⟨p, hp, e⟩, h⟩

theorem mem_reached : q ∈ A.reached w ↔ A.Path A.initial w q := by
  simp [reached, mem_statesAfter]

theorem statesAfter_empty : A.statesAfter .empty w = .empty := by
  simp [FinSet.eq_empty_iff, mem_statesAfter]

theorem final?_runFrom :
    (A.runFrom states w).final?.getD .empty = A.statesAfter states w := by
  induction w generalizing states with
  | nil => rfl
  | cons a w ih =>
    rw [runFrom, statesAfter_cons]
    by_cases h : (A.step states a).isEmpty = true
    · simp [FinSet.isEmpty_iff.mp h, statesAfter_empty, Run.final?]
    · simp [h, Run.final?, ih]

theorem accepts_eq_any : A.accepts w = (A.reached w).any A.isFinal := by
  rw [reached, ← final?_runFrom, accepts, isAccepting, run]
  cases (A.runFrom (.singleton A.initial) w).final? <;> rfl

end Automaton

end RegLang
