import RegLang.Proofs.Automaton.Determinize

/-!
This module contains how long the subset construction takes. No set of states is visited twice, and
every visit puts at most one set per symbol into the queue, so the sets that are visited bound those
that are taken from the queue.
-/

namespace RegLang

namespace Automaton

variable {σ : Type} [Ordered σ] {A : Automaton σ} {keepSink : Bool}

namespace Exploration

variable {e f : Exploration σ} {n fuel : Nat}

inductive Takes (A : Automaton σ) (keepSink : Bool) :
    Nat → Exploration σ → Exploration σ → Prop where
  | zero (e : Exploration σ) : Takes A keepSink 0 e e
  | succ {n : Nat} {e f : Exploration σ} :
    e.queue ≠ [] → Takes A keepSink n (e.step A keepSink) f → Takes A keepSink (n + 1) e f

theorem length_queue_step_le (A : Automaton σ) (keepSink : Bool) (hq : e.queue ≠ []) :
    (e.step A keepSink).queue.length + 1 + A.alphabet.size * e.visits.length ≤
      e.queue.length + A.alphabet.size * (e.step A keepSink).visits.length := by
  cases hqs : e.queue with
  | nil => exact absurd hqs hq
  | cons s queue =>
    by_cases hs : s ∈ e.processed
    · rw [step_of_mem hqs hs, List.length_cons]
    · have hle := length_queue_visit_le A keepSink hqs hs
      have hv : (e.step A keepSink).visits.length = e.visits.length + 1 := by
        rw [step_of_not_mem hqs hs, List.length_append, List.length_singleton]
      rw [hv, List.length_cons, Nat.mul_add_one]
      omega

theorem Takes.add_length_queue_le (h : Takes A keepSink n e f) :
    n + f.queue.length + A.alphabet.size * e.visits.length ≤
      e.queue.length + A.alphabet.size * f.visits.length := by
  induction h with
  | zero e => rw [Nat.zero_add]
  | succ hq _ ih =>
    have hle := length_queue_step_le A keepSink hq
    omega

theorem Takes.run_eq (h : Takes A keepSink n e f) (hf : f.queue = []) (hn : n ≤ fuel) :
    e.run A keepSink fuel = f := by
  induction h generalizing fuel with
  | zero e =>
    cases fuel with
    | zero => rfl
    | succ fuel =>
      unfold run
      rw [hf]
      rfl
  | succ hq _ ih =>
    cases fuel with
    | zero => omega
    | succ fuel =>
      unfold run
      rw [if_neg fun he => hq (List.isEmpty_iff.mp he)]
      exact ih hf (by omega)

theorem exists_takes_run (A : Automaton σ) (keepSink : Bool) (e : Exploration σ) (fuel : Nat) :
    ∃ n, Takes A keepSink n e (e.run A keepSink fuel) := by
  induction fuel generalizing e with
  | zero => exact ⟨0, .zero e⟩
  | succ fuel ih =>
    unfold run
    split
    · exact ⟨0, .zero e⟩
    · rename_i hq
      rcases ih (e.step A keepSink) with ⟨n, h⟩
      exact ⟨n + 1, .succ (fun he => hq (List.isEmpty_iff.mpr he)) h⟩

theorem Invariant.length_visits (h : e.Invariant A keepSink) :
    e.visits.length = e.processed.size := by
  have hperm : (e.visits.map Visit.state).Perm e.processed.toList := by
    apply (List.perm_ext_iff_of_nodup h.nodup (FinSet.nodup_toList _)).mpr
    intro s
    exact (h.mem_processed s).symm
  rw [← List.length_map Visit.state]
  exact hperm.length_eq

theorem Invariant.length_visits_le (hA : A.IsValid) (h : e.Invariant A keepSink) :
    e.visits.length ≤ 2 ^ A.states.size := by
  rw [h.length_visits]
  exact h.size_processed_le hA

theorem Invariant.state_ne_empty (h : e.Invariant A false) {v : Visit σ} (hv : v ∈ e.visits) :
    v.state ≠ .empty := by
  apply Discovers.ne_empty (A := A)
  apply h.discovers
  left
  exact (h.mem_processed v.state).mpr (List.mem_map_of_mem hv)

theorem Invariant.length_visits_lt (hA : A.IsValid) (h : e.Invariant A false) :
    e.visits.length < 2 ^ A.states.size := by
  have he : ¬ .empty ∈ e.processed := by
    intro he
    exact (h.discovers _ (.inl he)).ne_empty rfl
  rw [h.length_visits, Nat.lt_iff_add_one_le, ← FinSet.size_insert_of_not_mem he]
  apply FinSet.size_le_two_pow
  intro s hs q hq
  rcases FinSet.mem_insert.mp hs with hs | hs
  · rw [hs] at hq
    exact absurd hq FinSet.not_mem_empty
  · exact (h.discovers s (.inl hs)).mem_states hA hq

end Exploration

/--
The loop of the construction ends, whatever its fuel, and takes at most one set from its queue per
visit and symbol after the first one. Each set of states is visited at most once, so there are at most
`2 ^ n` visits for `n` states, and at most `2 ^ n - 1` without the sink, which leaves out the empty
set.
-/
theorem exists_takes_explore (hA : A.IsValid) (keepSink : Bool) :
    ∃ n, Exploration.Takes A keepSink n (.start A) (A.explore keepSink) ∧
      (A.explore keepSink).queue = [] ∧
      (∀ fuel, n ≤ fuel → Exploration.run A keepSink fuel (.start A) = A.explore keepSink) ∧
      ((A.explore keepSink).visits.map Visit.state).Nodup ∧
      (A.explore keepSink).visits.length ≤ 2 ^ A.states.size ∧
      (keepSink = false → (∀ v, v ∈ (A.explore keepSink).visits → v.state ≠ .empty) ∧
        (A.explore keepSink).visits.length ≤ 2 ^ A.states.size - 1) ∧
      n ≤ 1 + A.alphabet.size * (A.explore keepSink).visits.length := by
  have inv := invariant_explore A keepSink
  have hq : (A.explore keepSink).queue = [] := queue_explore hA
  rcases Exploration.exists_takes_run A keepSink (.start A) _ with ⟨n, h⟩
  refine ⟨n, h, hq, ?_, inv.nodup, inv.length_visits_le hA, ?_, ?_⟩
  · intro fuel hn
    exact h.run_eq hq hn
  · intro hk
    subst hk
    have hlt := inv.length_visits_lt hA
    exact ⟨fun v hv => inv.state_ne_empty hv, by omega⟩
  · -- The queue holds one set at the start and none at the end.
    have hle : n + (A.explore keepSink).queue.length + A.alphabet.size * 0 ≤
        1 + A.alphabet.size * (A.explore keepSink).visits.length := h.add_length_queue_le
    omega

theorem exists_takes_explore_branching :
    branching.IsValid ∧ ∃ n, Exploration.Takes branching false n (.start branching)
        (branching.explore false) ∧
      (branching.explore false).visits.length ≤ 15 ∧
      n ≤ 1 + 2 * (branching.explore false).visits.length := by
  rcases exists_takes_explore isValid_branching false with ⟨n, h, _, _, _, _, hvisits, hn⟩
  exact ⟨isValid_branching, n, h, (hvisits rfl).2, hn⟩

end Automaton

end RegLang
