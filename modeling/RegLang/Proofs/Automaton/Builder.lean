import RegLang.Automaton.Builder
import RegLang.Proofs.Automaton.Parts

/-!
This module contains what becomes of an automaton that is built call by call. A builder keeps what
its calls mention and nothing else, so that its parts always agree with each other and `ε` used as a
symbol is all that it can be refused for. Neither the order of the calls nor their repetition makes
a difference.
-/

namespace RegLang

namespace Automaton

namespace Builder

inductive Call (σ : Type) where
  | state (state : σ)
  | final (state : σ)
  | symbol (symbol : Char)
  | transition (source : σ) (symbol : Char) (target : σ)
  deriving Repr, DecidableEq

namespace Call

variable {σ : Type} {c : Call σ} {p q : σ} {a : Char}

def states : Call σ → List σ
  | state q => [q]
  | final q => [q]
  | symbol _ => []
  | transition p _ q => [p, q]

def symbols : Call σ → List Char
  | state _ => []
  | final _ => []
  | symbol a => [a]
  | transition _ a _ => [a]

def triples : Call σ → List (σ × Char × σ)
  | transition p a q => [(p, a, q)]
  | _ => []

def finals : Call σ → List σ
  | final q => [q]
  | _ => []

theorem mem_triples : (p, a, q) ∈ c.triples ↔ c = .transition p a q := by
  cases c with
  | transition p' a' q' => simp [triples, eq_comm]
  | _ => simp [triples]

theorem mem_finals : q ∈ c.finals ↔ c = .final q := by
  cases c with
  | final q' => simp [finals, eq_comm]
  | _ => simp [finals]

end Call

variable {σ : Type} {b : Builder σ} {initial p q : σ} {c : Call σ} {calls calls' : List (Call σ)}
  {a : Char}

def call (b : Builder σ) : Call σ → Builder σ
  | .state q => b.addState q
  | .final q => b.addFinal q
  | .symbol a => b.addSymbol a
  | .transition p a q => b.addTransition p a q

def ofCalls (initial : σ) (calls : List (Call σ)) : Builder σ :=
  calls.foldl call { initial := initial }

section Call

theorem initial_call : (b.call c).initial = b.initial := by
  cases c with
  | _ => rfl

theorem states_call : (b.call c).states = c.states ++ b.states := by
  cases c with
  | _ => rfl

theorem alphabet_call : (b.call c).alphabet = c.symbols ++ b.alphabet := by
  cases c with
  | _ => rfl

theorem triples_call : (b.call c).triples = c.triples ++ b.triples := by
  cases c with
  | _ => rfl

theorem finals_call : (b.call c).finals = c.finals ++ b.finals := by
  cases c with
  | _ => rfl

end Call

section Calls

theorem mem_foldl_call {α : Type} {part : Builder σ → List α} {added : Call σ → List α} {x : α}
    (h : ∀ {b c}, part (b.call c) = added c ++ part b) :
    x ∈ part (calls.foldl call b) ↔ x ∈ part b ∨ ∃ c, c ∈ calls ∧ x ∈ added c := by
  -- The first call has changed the builder that the others start from.
  induction calls generalizing b with
  | nil => simp
  | cons c calls ih =>
    rw [List.foldl_cons, ih, h, List.mem_append]
    simp only [List.mem_cons, or_and_right, exists_or, exists_eq_left]
    rw [or_assoc, or_left_comm]

theorem initial_ofCalls : (ofCalls initial calls).initial = initial := by
  suffices h : ∀ b : Builder σ, (calls.foldl call b).initial = b.initial from h _
  intro b
  induction calls generalizing b with
  | nil => rfl
  | cons c calls ih => rw [List.foldl_cons, ih, initial_call]

theorem mem_states_ofCalls :
    q ∈ (ofCalls initial calls).states ↔ q = initial ∨ ∃ c, c ∈ calls ∧ q ∈ c.states := by
  unfold ofCalls
  rw [mem_foldl_call states_call, List.mem_singleton]

theorem mem_alphabet_ofCalls :
    a ∈ (ofCalls initial calls).alphabet ↔ ∃ c, c ∈ calls ∧ a ∈ c.symbols := by
  unfold ofCalls
  rw [mem_foldl_call alphabet_call, or_iff_right List.not_mem_nil]

theorem mem_triples_ofCalls :
    (p, a, q) ∈ (ofCalls initial calls).triples ↔ .transition p a q ∈ calls := by
  unfold ofCalls
  rw [mem_foldl_call triples_call, or_iff_right List.not_mem_nil]
  simp only [Call.mem_triples, exists_eq_right]

theorem mem_finals_ofCalls :
    q ∈ (ofCalls initial calls).finals ↔ .final q ∈ calls := by
  unfold ofCalls
  rw [mem_foldl_call finals_call, or_iff_right List.not_mem_nil]
  simp only [Call.mem_finals, exists_eq_right]

end Calls

variable [Ordered σ] [ToString σ]

section Build

theorem exists_build_ofCalls_eq_ok (initial : σ)
    (h : ¬ ∃ c, c ∈ calls ∧ epsilon ∈ c.symbols) :
    ∃ A, (ofCalls initial calls).build = .ok A := by
  apply exists_ofTriples_eq_ok_iff.mpr
  rw [mem_alphabet_ofCalls, initial_ofCalls]
  refine ⟨h, ?_, ?_, ?_⟩
  · exact mem_states_ofCalls.mpr (.inl rfl)
  · intro q hq
    rw [mem_finals_ofCalls] at hq
    exact mem_states_ofCalls.mpr (.inr ⟨_, hq, List.mem_singleton_self q⟩)
  · intro p a q ht
    rw [mem_triples_ofCalls] at ht
    refine ⟨?_, ?_, ?_⟩
    · exact mem_states_ofCalls.mpr (.inr ⟨_, ht, List.mem_cons_self⟩)
    · exact mem_alphabet_ofCalls.mpr ⟨_, ht, List.mem_singleton_self a⟩
    · have hq : q ∈ (Call.transition p a q).states := List.mem_cons_of_mem p List.mem_cons_self
      exact mem_states_ofCalls.mpr (.inr ⟨_, ht, hq⟩)

theorem build_ofCalls_of_epsilon (h : ∃ c, c ∈ calls ∧ epsilon ∈ c.symbols) :
    (ofCalls initial calls).build = .error (.reservedSymbol epsilon) := by
  apply ofTriples_of_epsilon_mem
  exact mem_alphabet_ofCalls.mpr h

theorem build_ofCalls_congr (h : ∀ c, c ∈ calls' ↔ c ∈ calls) :
    (ofCalls initial calls').build = (ofCalls initial calls).build := by
  unfold build
  rw [initial_ofCalls, initial_ofCalls]
  apply ofTriples_congr
  · intro q
    simp only [mem_states_ofCalls, h]
  · intro a
    simp only [mem_alphabet_ofCalls, h]
  · rintro ⟨p, a, q⟩
    simp only [mem_triples_ofCalls, h]
  · intro q
    simp only [mem_finals_ofCalls, h]

end Build

/--
A builder is refused if and only if one of its calls uses `ε` as a symbol. Otherwise it becomes the
valid automaton of what its calls mention, and of the initial state, whatever the order of the calls
and however often they are made.
-/
theorem build_ofCalls_eq_error_iff_and_exists_eq_ok (initial : σ) (calls : List (Call σ)) :
    (∀ e, (ofCalls initial calls).build = .error e ↔
      e = .reservedSymbol epsilon ∧ ∃ c, c ∈ calls ∧ epsilon ∈ c.symbols) ∧
    ((¬ ∃ c, c ∈ calls ∧ epsilon ∈ c.symbols) →
      ∃ A, (ofCalls initial calls).build = .ok A ∧ A.IsValid ∧ A.initial = initial ∧
        (∀ q, q ∈ A.states ↔ q = initial ∨ ∃ c, c ∈ calls ∧ q ∈ c.states) ∧
        (∀ a, a ∈ A.alphabet ↔ ∃ c, c ∈ calls ∧ a ∈ c.symbols) ∧
        (∀ q, q ∈ A.finals ↔ .final q ∈ calls) ∧
        ∀ p a q, A.Edge p a q ↔ .transition p a q ∈ calls) ∧
    ∀ calls', (∀ c, c ∈ calls' ↔ c ∈ calls) →
      (ofCalls initial calls').build = (ofCalls initial calls).build := by
  refine ⟨?_, ?_, ?_⟩
  · intro e
    by_cases h : ∃ c, c ∈ calls ∧ epsilon ∈ c.symbols
    · rw [build_ofCalls_of_epsilon h, Except.error.injEq, and_iff_left h, eq_comm]
    · rcases exists_build_ofCalls_eq_ok initial h with ⟨A, hA⟩
      rw [hA]
      simp [h]
  · intro h
    rcases exists_build_ofCalls_eq_ok initial h with ⟨A, hA⟩
    have hvalid : A.IsValid := isValid_of_checked hA
    refine ⟨A, hA, hvalid, ?_⟩
    rcases ofTriples_eq_ok_iff.mp hA with ⟨_, rfl⟩
    refine ⟨initial_ofCalls, ?_, ?_, ?_, ?_⟩
    · intro q
      apply FinSet.mem_ofList.trans
      apply mem_states_ofCalls
    · intro a
      apply FinSet.mem_ofList.trans
      apply mem_alphabet_ofCalls
    · intro q
      apply FinSet.mem_ofList.trans
      apply mem_finals_ofCalls
    · intro p a q
      apply edge_assembled.trans
      apply mem_triples_ofCalls
  · intro calls' h
    exact build_ofCalls_congr h

def someCalls : List (Call Int) := [.transition 0 'a' 1, .final 1, .symbol 'b', .state 2]

theorem build_ofCalls_eq_error_iff_and_exists_eq_ok_someCalls :
    (∃ A, (ofCalls 0 someCalls).build = .ok A ∧ A.Edge 0 'a' 1 ∧ ¬ A.Edge 1 'a' 0 ∧ 2 ∈ A.states ∧
      'b' ∈ A.alphabet ∧ (ofCalls 0 (someCalls.reverse ++ someCalls)).build = .ok A) ∧
    (ofCalls 0 (.symbol epsilon :: someCalls)).build = .error (.reservedSymbol epsilon) := by
  have hε : ¬ ∃ c, c ∈ someCalls ∧ epsilon ∈ c.symbols := by decide
  rcases build_ofCalls_eq_error_iff_and_exists_eq_ok 0 someCalls with ⟨_, hok, hcalls⟩
  constructor
  · rcases hok hε with ⟨A, hA, _, _, hstates, halphabet, _, hedges⟩
    refine ⟨A, hA, ?_, ?_, ?_, ?_, ?_⟩
    · rw [hedges]
      decide
    · rw [hedges]
      decide
    · rw [hstates]
      decide
    · rw [halphabet]
      decide
    · rw [← hA]
      apply hcalls
      simp
  · apply ((build_ofCalls_eq_error_iff_and_exists_eq_ok 0 (.symbol epsilon :: someCalls)).1 _).mpr
    refine ⟨rfl, ?_⟩
    decide

end Builder

end Automaton

end RegLang
