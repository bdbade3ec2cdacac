import RegLang.Automaton.Subset
import RegLang.Automaton.Validity
import RegLang.Proofs.FinSet.Size

/-!
This module contains the course of the subset construction: what every step of it preserves, why it
ends, and what it has found when it ends.
-/

namespace RegLang

namespace Automaton

variable {σ : Type} [Ordered σ] {A : Automaton σ} {keepSink : Bool} {s t : FinSet σ} {a : Char}
  {queue : List (FinSet σ)}

inductive Discovers (A : Automaton σ) (keepSink : Bool) : FinSet σ → Prop where
  | initial : Discovers A keepSink (.singleton A.initial)
  | move {s t : FinSet σ} {a : Char} :
    Discovers A keepSink s → (a, t) ∈ (A.visit keepSink s).moves → Discovers A keepSink t

@[simp]
theorem state_visit : (A.visit keepSink s).state = s := rfl

theorem mem_moves_visit :
    (a, t) ∈ (A.visit keepSink s).moves ↔
      a ∈ A.alphabet ∧ t = A.step s a ∧ (t = .empty → keepSink = true) := by
  simp only [visit, List.mem_filterMap, FinSet.mem_toList, Option.ite_none_left_eq_some,
    Option.some.injEq, Prod.mk.injEq, Bool.and_eq_true, FinSet.isEmpty_iff, Bool.not_eq_true',
    not_and, Bool.not_eq_false]
  constructor
  · rintro ⟨b, hb, hk, e, ht⟩
    subst e ht
    exact ⟨hb, rfl, hk⟩
  · rintro ⟨ha, ht, hk⟩
    subst ht
    exact ⟨a, ha, hk, rfl, rfl⟩

theorem length_moves_visit_le : (A.visit keepSink s).moves.length ≤ A.alphabet.size :=
  List.length_filterMap_le _ _

theorem mem_states_of_mem_step (hA : A.IsValid) {q : σ} (hq : q ∈ A.step s a) : q ∈ A.states := by
  rcases mem_step.mp hq with ⟨p, _, e⟩
  exact hA.target_mem p a q e

theorem Discovers.mem_states (hA : A.IsValid) (h : A.Discovers keepSink s) {q : σ} (hq : q ∈ s) :
    q ∈ A.states := by
  cases h with
  | initial =>
    rw [FinSet.mem_singleton] at hq
    rw [hq]
    exact hA.initial_mem
  | move _ hm =>
    rw [(mem_moves_visit.mp hm).2.1] at hq
    exact mem_states_of_mem_step hA hq

namespace Exploration

variable {e : Exploration σ}

def Knows (e : Exploration σ) (s : FinSet σ) : Prop := s ∈ e.processed ∨ s ∈ e.queue

/--
What holds of a construction at any time. Every set that was looked at has one visit, and what
follows it is known.
-/
structure Invariant (A : Automaton σ) (keepSink : Bool) (e : Exploration σ) : Prop where
  visit_eq : ∀ v, v ∈ e.visits → v = A.visit keepSink v.state
  mem_processed : ∀ s, s ∈ e.processed ↔ s ∈ e.visits.map Visit.state
  nodup : (e.visits.map Visit.state).Nodup
  knows_initial : e.Knows (.singleton A.initial)
  closed : ∀ s a t, s ∈ e.processed → (a, t) ∈ (A.visit keepSink s).moves → e.Knows t
  discovers : ∀ s, e.Knows s → A.Discovers keepSink s

theorem step_of_mem (hq : e.queue = s :: queue) (hs : s ∈ e.processed) :
    e.step A keepSink = { e with queue := queue } := by
  unfold step
  rw [hq]
  simp [hs]

theorem step_of_not_mem (hq : e.queue = s :: queue) (hs : ¬ s ∈ e.processed) :
    e.step A keepSink =
      { queue := queue ++ ((A.visit keepSink s).moves.map Prod.snd).filter fun next =>
          !(e.processed.insert s).contains next
        processed := e.processed.insert s
        visits := e.visits ++ [A.visit keepSink s] } := by
  unfold step
  rw [hq]
  simp [hs]

theorem invariant_start : (start A).Invariant A keepSink where
  visit_eq v hv := absurd hv List.not_mem_nil
  mem_processed s := by simp [start]
  nodup := .nil
  knows_initial := .inr List.mem_cons_self
  closed s a t hs := absurd hs FinSet.not_mem_empty
  discovers s hs := by
    cases hs with
    | inl hs => exact absurd hs FinSet.not_mem_empty
    | inr hs =>
      rw [List.mem_singleton.mp hs]
      exact .initial

theorem knows_of_skip (hq : e.queue = s :: queue) (hs : s ∈ e.processed) :
    ({ e with queue := queue } : Exploration σ).Knows t ↔ e.Knows t := by
  simp only [Knows, hq, List.mem_cons]
  constructor
  · intro h
    exact h.imp_right .inr
  · intro h
    rcases h with h | h | h
    · exact .inl h
    · exact .inl (h ▸ hs)
    · exact .inr h

theorem knows_step_of_not_mem (A : Automaton σ) (keepSink : Bool) (hq : e.queue = s :: queue)
    (hs : ¬ s ∈ e.processed) :
    (e.step A keepSink).Knows t ↔ e.Knows t ∨ ∃ a, (a, t) ∈ (A.visit keepSink s).moves := by
  rw [step_of_not_mem hq hs]
  simp only [Knows, hq, FinSet.mem_insert, List.mem_append, List.mem_filter, List.mem_map,
    List.mem_cons, Prod.exists, exists_eq_right, Bool.not_eq_true', FinSet.contains_eq_false_iff]
  constructor
  · intro h
    rcases h with (h | h) | h | ⟨h, _⟩
    · exact .inl (.inr (.inl h))
    · exact .inl (.inl h)
    · exact .inl (.inr (.inr h))
    · exact .inr h
  · intro h
    rcases h with (h | h | h) | h
    · exact .inl (.inr h)
    · exact .inl (.inl h)
    · exact .inr (.inl h)
    · -- A set that follows is put into the queue only if it was not looked at.
      by_cases ht : t = s ∨ t ∈ e.processed
      · exact .inl ht
      · exact .inr (.inr ⟨h, ht⟩)

theorem Invariant.skip (h : e.Invariant A keepSink) (hq : e.queue = s :: queue)
    (hs : s ∈ e.processed) : ({ e with queue := queue } : Exploration σ).Invariant A keepSink where
  visit_eq := h.visit_eq
  mem_processed := h.mem_processed
  nodup := h.nodup
  knows_initial := (knows_of_skip hq hs).mpr h.knows_initial
  closed s' a t hs' hm := (knows_of_skip hq hs).mpr (h.closed s' a t hs' hm)
  discovers t ht := h.discovers t ((knows_of_skip hq hs).mp ht)

theorem Invariant.visit (h : e.Invariant A keepSink) (hq : e.queue = s :: queue)
    (hs : ¬ s ∈ e.processed) : (e.step A keepSink).Invariant A keepSink := by
  have hk {t : FinSet σ} := knows_step_of_not_mem A keepSink (t := t) hq hs
  have hqs : e.Knows s := .inr (hq ▸ List.mem_cons_self)
  have hv : (e.step A keepSink).visits = e.visits ++ [A.visit keepSink s] := by
    rw [step_of_not_mem hq hs]
  have hp {t : FinSet σ} : t ∈ (e.step A keepSink).processed ↔ t = s ∨ t ∈ e.processed := by
    rw [step_of_not_mem hq hs, FinSet.mem_insert]
  constructor
  case visit_eq =>
    intro v hm
    rw [hv, List.mem_append, List.mem_singleton] at hm
    rcases hm with hm | hm
    · exact h.visit_eq v hm
    · rw [hm, state_visit]
  case mem_processed =>
    intro t
    rw [hp, hv, List.map_append, List.mem_append, ← h.mem_processed, List.map_singleton,
      List.mem_singleton, state_visit, or_comm]
  case nodup =>
    rw [hv, List.map_append, List.nodup_append]
    refine ⟨h.nodup, List.nodup_singleton _, ?_⟩
    -- An earlier visit of `s` would have put it among the processed sets.
    intro t ht u hu e
    rw [List.map_singleton, List.mem_singleton, state_visit] at hu
    rw [← h.mem_processed, e, hu] at ht
    exact hs ht
  case knows_initial => exact hk.mpr (.inl h.knows_initial)
  case closed =>
    intro s' a t hs' hm
    apply hk.mpr
    rcases hp.mp hs' with hs' | hs'
    · exact .inr ⟨a, hs' ▸ hm⟩
    · exact .inl (h.closed s' a t hs' hm)
  case discovers =>
    intro t ht
    rcases hk.mp ht with ht | ⟨a, hm⟩
    · exact h.discovers t ht
    · exact .move (h.discovers s hqs) hm

theorem Invariant.step (h : e.Invariant A keepSink) : (e.step A keepSink).Invariant A keepSink := by
  cases hq : e.queue with
  | nil =>
    unfold Exploration.step
    rw [hq]
    exact h
  | cons s queue =>
    by_cases hs : s ∈ e.processed
    · rw [step_of_mem hq hs]
      exact h.skip hq hs
    · exact h.visit hq hs

theorem Invariant.run (h : e.Invariant A keepSink) (fuel : Nat) :
    (e.run A keepSink fuel).Invariant A keepSink := by
  induction fuel generalizing e with
  | zero => exact h
  | succ fuel ih =>
    unfold Exploration.run
    split
    · exact h
    · exact ih h.step

/--
A bound on the steps that are left: every set in the queue takes one, and every set that was not yet
looked at puts at most one set per symbol into the queue.
-/
def pending (A : Automaton σ) (e : Exploration σ) : Nat :=
  e.queue.length + A.alphabet.size * (2 ^ A.states.size - e.processed.size)

theorem Invariant.size_processed_le (hA : A.IsValid) (h : e.Invariant A keepSink) :
    e.processed.size ≤ 2 ^ A.states.size := by
  apply FinSet.size_le_two_pow
  intro s hs q hq
  exact (h.discovers s (.inl hs)).mem_states hA hq

theorem pending_skip_lt (hq : e.queue = s :: queue) :
    ({ e with queue := queue } : Exploration σ).pending A < e.pending A := by
  unfold pending
  rw [hq, List.length_cons]
  dsimp only
  omega

theorem length_queue_visit_le (A : Automaton σ) (keepSink : Bool) (hq : e.queue = s :: queue)
    (hs : ¬ s ∈ e.processed) :
    (e.step A keepSink).queue.length ≤ queue.length + A.alphabet.size := by
  rw [step_of_not_mem hq hs, List.length_append, Nat.add_le_add_iff_left]
  apply Nat.le_trans (List.length_filter_le _ _)
  rw [List.length_map]
  exact length_moves_visit_le

theorem Invariant.pending_visit_lt (hA : A.IsValid) (h : e.Invariant A keepSink)
    (hq : e.queue = s :: queue) (hs : ¬ s ∈ e.processed) :
    (e.step A keepSink).pending A < e.pending A := by
  have hp : (e.step A keepSink).processed.size = e.processed.size + 1 := by
    rw [step_of_not_mem hq hs, FinSet.size_insert_of_not_mem hs]
  have hsize := (h.visit hq hs).size_processed_le hA
  have hqueue := length_queue_visit_le A keepSink hq hs
  rw [hp] at hsize
  -- The new set leaves one set less to visit, which pays for the sets it puts into the queue.
  have hrest : 2 ^ A.states.size - e.processed.size =
      2 ^ A.states.size - (e.processed.size + 1) + 1 := by
    omega
  unfold pending
  rw [hp, hrest, hq, List.length_cons, Nat.mul_add_one]
  omega

theorem Invariant.pending_step_lt (hA : A.IsValid) (h : e.Invariant A keepSink)
    (hq : e.queue ≠ []) : (e.step A keepSink).pending A < e.pending A := by
  cases hqs : e.queue with
  | nil => exact absurd hqs hq
  | cons s queue =>
    by_cases hs : s ∈ e.processed
    · rw [step_of_mem hqs hs]
      exact pending_skip_lt hqs
    · exact h.pending_visit_lt hA hqs hs

theorem Invariant.queue_run (hA : A.IsValid) (h : e.Invariant A keepSink) {fuel : Nat}
    (hfuel : e.pending A ≤ fuel) : (e.run A keepSink fuel).queue = [] := by
  induction fuel generalizing e with
  | zero =>
    unfold Exploration.run
    apply List.eq_nil_of_length_eq_zero
    unfold pending at hfuel
    omega
  | succ fuel ih =>
    unfold Exploration.run
    split
    · rename_i hq
      exact List.isEmpty_iff.mp hq
    · rename_i hq
      rw [List.isEmpty_iff] at hq
      have := h.pending_step_lt hA hq
      apply ih h.step
      omega

theorem pending_start : (start A).pending A = 1 + A.alphabet.size <<< A.states.size := by
  rw [Nat.shiftLeft_eq]
  rfl

end Exploration

theorem invariant_explore (A : Automaton σ) (keepSink : Bool) :
    (A.explore keepSink).Invariant A keepSink :=
  Exploration.invariant_start.run _

theorem queue_explore (hA : A.IsValid) : (A.explore keepSink).queue = [] :=
  Exploration.invariant_start.queue_run hA (Nat.le_of_eq Exploration.pending_start)

theorem knows_explore (hA : A.IsValid) :
    (A.explore keepSink).Knows s ↔ s ∈ (A.explore keepSink).processed := by
  simp [Exploration.Knows, queue_explore hA]

theorem mem_processed_explore (hA : A.IsValid) :
    s ∈ (A.explore keepSink).processed ↔ A.Discovers keepSink s := by
  have inv := invariant_explore A keepSink
  constructor
  · intro h
    exact inv.discovers s (.inl h)
  · intro h
    induction h with
    | initial => exact (knows_explore hA).mp inv.knows_initial
    | move _ hm ih => exact (knows_explore hA).mp (inv.closed _ _ _ ih hm)

theorem mem_visits_explore (hA : A.IsValid) {v : Visit σ} :
    v ∈ (A.explore keepSink).visits ↔
      A.Discovers keepSink v.state ∧ v = A.visit keepSink v.state := by
  have inv := invariant_explore A keepSink
  rw [← mem_processed_explore hA, inv.mem_processed, List.mem_map]
  constructor
  · intro h
    exact ⟨⟨v, h, rfl⟩, inv.visit_eq v h⟩
  · rintro ⟨⟨u, hu, e⟩, h⟩
    rw [h, ← e, ← inv.visit_eq u hu]
    exact hu

end Automaton

end RegLang
