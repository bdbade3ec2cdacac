import RegLang.Proofs.Automaton.ReachablePart

/-!
This module contains why the language of a deterministic automaton is complemented by exchanging its
final states for the others: after every prefix of a word over the alphabet exactly one state is
possible, and it is final in one of the two automata.
-/

namespace RegLang

namespace Automaton

variable {σ : Type} [Ordered σ] {A : Automaton σ} {states : FinSet σ} {p : σ} {a : Char}
  {w v : List Char}

theorem IsValid.complement (hA : A.IsValid) : A.complement.IsValid where
  epsilon_not_mem := hA.epsilon_not_mem
  initial_mem := hA.initial_mem
  finals_mem _ hq := (FinSet.mem_filter.mp hq).1
  source_mem := hA.source_mem
  symbol_mem := hA.symbol_mem
  target_mem := hA.target_mem
  isPruned := hA.isPruned

theorem isFinal_complement (hp : p ∈ A.states) : A.complement.isFinal p = !A.isFinal p := by
  rw [Bool.eq_iff_iff]
  unfold isFinal complement
  rw [FinSet.contains_iff, FinSet.mem_filter, and_iff_right hp]
  rfl

theorem runFrom_complement : A.complement.runFrom states w = A.runFrom states w := by
  induction w generalizing states with
  | nil => rfl
  | cons a w ih =>
    unfold runFrom
    simp only [ih]
    rfl

section

variable (hA : A.IsValid) (hd : A.isDeterministic = true)

include hA hd

theorem exists_step_singleton_eq (hp : p ∈ A.states) (ha : a ∈ A.alphabet) :
    ∃ q, q ∈ A.states ∧ A.step (.singleton p) a = .singleton q := by
  rcases hA.isDeterministic_iff.mp hd with ⟨hpartial, _, htotal⟩
  rcases htotal p a hp ha with ⟨q, e⟩
  exact ⟨q, hA.target_mem p a q e, step_singleton_eq (isPartialDfa_iff.mp hpartial) e⟩

theorem exists_final?_runFrom_eq (hp : p ∈ A.states) (hw : ∀ c, c ∈ w → c ∈ A.alphabet) :
    ∃ q, q ∈ A.states ∧ (A.runFrom (.singleton p) w).final? = some (.singleton q) := by
  induction w generalizing p with
  | nil => exact ⟨p, hp, rfl⟩
  | cons a w ih =>
    rcases exists_step_singleton_eq hA hd hp (hw a List.mem_cons_self) with ⟨q, hq, hstep⟩
    rcases ih hq fun c hc => hw c (List.mem_cons_of_mem a hc) with ⟨r, hr, hrun⟩
    refine ⟨r, hr, ?_⟩
    -- The set after the first symbol has a member, so the run is not stuck there.
    unfold runFrom
    rw [hstep]
    exact hrun

theorem exists_final?_run_eq (hw : ∀ c, c ∈ w → c ∈ A.alphabet) (hv : v <+: w) :
    ∃ q, (A.run v).final? = some (.singleton q) := by
  rcases exists_final?_runFrom_eq hA hd hA.initial_mem fun c hc => hw c (hv.mem hc) with
    ⟨q, _, hq⟩
  exact ⟨q, hq⟩

theorem accepts_complement (hw : ∀ c, c ∈ w → c ∈ A.alphabet) :
    A.complement.accepts w = !A.accepts w := by
  rcases exists_final?_runFrom_eq hA hd hA.initial_mem hw with ⟨q, hq, hrun⟩
  have hrun' : (A.complement.run w).final? = some (.singleton q) := by
    unfold run
    rw [runFrom_complement]
    exact hrun
  unfold accepts isAccepting
  rw [hrun']
  unfold run
  rw [hrun]
  simp [FinSet.any, FinSet.singleton, isFinal_complement hq]

end

/--
A deterministic automaton is in exactly one state after every prefix of a word over its alphabet,
and with the other states as final ones it accepts just the words over the alphabet that it does not
accept itself. Among these automata are the complete ones of the subset construction.
-/
theorem exists_final?_run_and_accepts_complement (hA : A.IsValid) :
    (A.isDeterministic = true → A.complement.IsValid ∧ ∀ w, (∀ c, c ∈ w → c ∈ A.alphabet) →
      (∀ v, v <+: w → ∃ q, (A.run v).final? = some (.singleton q)) ∧
      A.complement.accepts w = !A.accepts w) ∧
    (A.alphabet ≠ .empty → A.toCompleteDfa.isDeterministic = true ∧
      A.toCompleteDfa.complement.IsValid ∧ ∀ w, (∀ c, c ∈ w → c ∈ A.alphabet) →
        (∀ v, v <+: w → ∃ s, (A.toCompleteDfa.run v).final? = some (.singleton s)) ∧
        A.toCompleteDfa.complement.accepts w = !A.toCompleteDfa.accepts w) := by
  have hcomplete : A.toCompleteDfa.IsValid := isValid_determinize hA
  constructor
  · intro hd
    refine ⟨hA.complement, ?_⟩
    intro w hw
    exact ⟨fun v hv => exists_final?_run_eq hA hd hw hv, accepts_complement hA hd hw⟩
  · intro hne
    have hd : A.toCompleteDfa.isDeterministic = true := by
      rw [toCompleteDfa_eq_determinize, isDeterministic_determinize_iff hA]
      exact ⟨hne, fun _ _ _ _ _ => rfl⟩
    refine ⟨hd, hcomplete.complement, ?_⟩
    intro w hw
    exact ⟨fun v hv => exists_final?_run_eq hcomplete hd hw hv, accepts_complement hcomplete hd hw⟩

def parity : Automaton Int where
  states := .ofList [0, 1]
  alphabet := .ofList ['a', 'b']
  transitions := .ofTriples [(0, 'a', 1), (0, 'b', 0), (1, 'a', 0), (1, 'b', 1)]
  initial := 0
  finals := .singleton 0

theorem isValid_parity : parity.IsValid := by
  apply isValid_of_checked (A := parity)
  rfl

theorem exists_final?_run_and_accepts_complement_parity_and_branching :
    parity.IsValid ∧ parity.isDeterministic = true ∧ parity.complement.IsValid ∧
      (∃ q, (parity.run ['b', 'a']).final? = some (.singleton q)) ∧
      parity.complement.accepts ['b', 'a', 'b'] = !parity.accepts ['b', 'a', 'b'] ∧
      branching.IsValid ∧ branching.alphabet ≠ .empty ∧
        branching.toCompleteDfa.complement.IsValid ∧
        (∃ s, (branching.toCompleteDfa.run ['b', 'a']).final? = some (.singleton s)) ∧
        branching.toCompleteDfa.complement.accepts ['b', 'a', 'b'] =
          !branching.toCompleteDfa.accepts ['b', 'a', 'b'] := by
  have hw : ∀ c, c ∈ ['b', 'a', 'b'] → c ∈ FinSet.ofList ['a', 'b'] := by
    have hall : ['b', 'a', 'b'].all (FinSet.ofList ['a', 'b']).contains = true := by
      decide
    intro c hc
    exact FinSet.contains_iff.mp (List.all_eq_true.mp hall c hc)
  have hv : ['b', 'a'] <+: ['b', 'a', 'b'] := ⟨['b'], rfl⟩
  have hd : parity.isDeterministic = true := by
    rfl
  have hne : branching.alphabet ≠ .empty := nofun
  rcases (exists_final?_run_and_accepts_complement isValid_parity).1 hd with ⟨hparity, hruns⟩
  rcases (exists_final?_run_and_accepts_complement isValid_branching).2 hne with
    ⟨_, hbranching, hruns'⟩
  exact ⟨isValid_parity, hd, hparity, (hruns _ hw).1 _ hv, (hruns _ hw).2, isValid_branching, hne,
    hbranching, (hruns' _ hw).1 _ hv, (hruns' _ hw).2⟩

example : branching.accepts ['b'] = false ∧ branching.complement.accepts ['b'] = false := by
  decide

end Automaton

end RegLang
