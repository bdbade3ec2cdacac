import RegLang.Proofs.Automaton.Determinism

/-!
This module contains what the subset construction makes of an automaton that is deterministic
already: the part of it that can be reached, with every state renamed to the set of this state alone.
To determinize twice is therefore the same as to determinize once, but for the names of the states.
-/

namespace RegLang

namespace Automaton

variable {σ : Type} [Ordered σ] {A : Automaton σ} {keepSink : Bool} {s t : FinSet σ} {p q r : σ}
  {a : Char} {w : List Char}

def IsReachable (A : Automaton σ) (state : σ) : Prop := ∃ word, A.Path A.initial word state

open Classical in
noncomputable def reachablePart (A : Automaton σ) : Automaton σ :=
  A.restrict fun state => decide (A.IsReachable state)

def IsTotal (A : Automaton σ) : Prop :=
  ∀ p a, p ∈ A.states → a ∈ A.alphabet → ∃ q, A.Edge p a q

theorem isReachable_initial : A.IsReachable A.initial := ⟨[], .nil _⟩

theorem IsReachable.of_edge (hp : A.IsReachable p) (e : A.Edge p a q) : A.IsReachable q := by
  rcases hp with ⟨w, hw⟩
  exact ⟨w ++ [a], path_append.mpr ⟨p, hw, .cons e (.nil q)⟩⟩

theorem IsReachable.mem_states (hA : A.IsValid) (hq : A.IsReachable q) : q ∈ A.states := by
  rcases hq with ⟨w, hw⟩
  cases w using List.reverseRecOn with
  | nil =>
    rw [← path_nil.mp hw]
    exact hA.initial_mem
  | append_singleton w a =>
    rcases path_append.mp hw with ⟨p, _, h⟩
    rcases path_cons.mp h with ⟨r, e, h⟩
    rw [← path_nil.mp h]
    exact hA.target_mem p a r e

theorem mem_states_reachablePart (hA : A.IsValid) :
    q ∈ A.reachablePart.states ↔ A.IsReachable q := by
  unfold reachablePart restrict
  simp only [FinSet.mem_filter, decide_eq_true_eq]
  exact and_iff_right_of_imp fun h => h.mem_states hA

theorem mem_finals_reachablePart :
    q ∈ A.reachablePart.finals ↔ q ∈ A.finals ∧ A.IsReachable q := by
  unfold reachablePart restrict
  simp only [FinSet.mem_filter, decide_eq_true_eq]

theorem edge_reachablePart :
    A.reachablePart.Edge p a q ↔ A.Edge p a q ∧ A.IsReachable p := by
  unfold reachablePart
  simp only [edge_restrict, decide_eq_true_eq]
  constructor
  · rintro ⟨e, hp, _⟩
    exact ⟨e, hp⟩
  · rintro ⟨e, hp⟩
    exact ⟨e, hp, hp.of_edge e⟩

theorem mem_step_singleton : q ∈ A.step (.singleton p) a ↔ A.Edge p a q := by
  simp [mem_step]

theorem step_singleton_eq (hu : A.HasUniqueSuccessors) (e : A.Edge p a q) :
    A.step (.singleton p) a = .singleton q := by
  apply FinSet.ext
  intro r
  rw [mem_step_singleton, FinSet.mem_singleton]
  constructor
  · intro h
    exact hu.eq_of_edge h e
  · intro h
    rw [h]
    exact e

theorem mem_moves_visit_singleton_iff (hA : A.IsValid) (hu : A.HasUniqueSuccessors)
    (hk : keepSink = true → A.IsTotal) (hp : p ∈ A.states) :
    (a, t) ∈ (A.visit keepSink (.singleton p)).moves ↔ ∃ q, .singleton q = t ∧ A.Edge p a q := by
  rw [mem_moves_visit]
  constructor
  · rintro ⟨ha, ht, hsink⟩
    by_cases he : ∃ q, A.Edge p a q
    · rcases he with ⟨q, e⟩
      refine ⟨q, ?_, e⟩
      rw [ht, step_singleton_eq hu e]
    · have htempty : t = .empty := by
        rw [ht, FinSet.eq_empty_iff]
        intro q hq
        exact he ⟨q, mem_step_singleton.mp hq⟩
      exact absurd (hk (hsink htempty) p a hp ha) he
  · rintro ⟨q, ht, e⟩
    subst ht
    exact ⟨(hA.mem_of_edge e).2.1, (step_singleton_eq hu e).symm, nofun⟩

theorem discovers_iff_isReachable (hA : A.IsValid) (hu : A.HasUniqueSuccessors)
    (hk : keepSink = true → A.IsTotal) :
    A.Discovers keepSink s ↔ ∃ q, A.IsReachable q ∧ .singleton q = s := by
  constructor
  · intro h
    induction h with
    | initial => exact ⟨A.initial, isReachable_initial, rfl⟩
    | move _ hm ih =>
      rcases ih with ⟨p, hp, hs⟩
      subst hs
      rcases (mem_moves_visit_singleton_iff hA hu hk (hp.mem_states hA)).mp hm with ⟨q, ht, e⟩
      exact ⟨q, hp.of_edge e, ht⟩
  · rintro ⟨q, ⟨w, hw⟩, hs⟩
    subst hs
    induction w using List.reverseRecOn generalizing q with
    | nil =>
      rw [← path_nil.mp hw]
      exact .initial
    | append_singleton w a ih =>
      rcases path_append.mp hw with ⟨p, hp, h⟩
      rcases path_cons.mp h with ⟨r, e, h⟩
      rw [← path_nil.mp h]
      have hps : p ∈ A.states := (hA.mem_of_edge e).1
      exact .move (ih p hp) ((mem_moves_visit_singleton_iff hA hu hk hps).mpr ⟨r, rfl, e⟩)

theorem determinize_eq_map_reachablePart (hA : A.IsValid) (hu : A.HasUniqueSuccessors)
    (hk : keepSink = true → A.IsTotal) :
    A.determinize keepSink = A.reachablePart.map .singleton := by
  have hd {s : FinSet σ} := discovers_iff_isReachable (s := s) hA hu hk
  have hvalid : (A.determinize keepSink).IsValid := isValid_determinize hA
  apply eq_of_edges hvalid.isPruned Transitions.isPruned_ofTriples
  case hs =>
    intro s
    unfold map
    rw [mem_states_determinize hA, hd, FinSet.mem_map]
    simp only [mem_states_reachablePart hA]
  case ha => rfl
  case hi => rfl
  case hf =>
    intro s
    unfold map
    rw [mem_finals_determinize hA, hd, FinSet.mem_map]
    simp only [mem_finals_reachablePart]
    constructor
    · rintro ⟨⟨q, hq, hs⟩, r, hr, hf⟩
      rw [← hs, FinSet.mem_singleton] at hr
      exact ⟨q, ⟨hr ▸ hf, hq⟩, hs⟩
    · rintro ⟨q, ⟨hf, hq⟩, hs⟩
      exact ⟨⟨q, hq, hs⟩, q, hs ▸ FinSet.mem_singleton.mpr rfl, hf⟩
  case he =>
    intro s a t
    rw [edge_determinize hA, hd, edge_map]
    simp only [edge_reachablePart]
    constructor
    · rintro ⟨⟨p, hp, hs⟩, hm⟩
      subst hs
      rcases (mem_moves_visit_singleton_iff hA hu hk (hp.mem_states hA)).mp hm with ⟨q, ht, e⟩
      exact ⟨p, q, ⟨e, hp⟩, rfl, ht⟩
    · rintro ⟨p, q, ⟨e, hp⟩, hs, ht⟩
      subst hs
      refine ⟨⟨p, hp, rfl⟩, ?_⟩
      exact (mem_moves_visit_singleton_iff hA hu hk (hp.mem_states hA)).mpr ⟨q, ht, e⟩

theorem Discovers.isReachable (hA : A.IsValid) (h : A.Discovers keepSink s) :
    (A.determinize keepSink).IsReachable s := by
  induction h with
  | initial => exact isReachable_initial
  | move hs hm ih => exact ih.of_edge ((edge_determinize hA).mpr ⟨hs, hm⟩)

theorem reachablePart_determinize (hA : A.IsValid) :
    (A.determinize keepSink).reachablePart = A.determinize keepSink := by
  apply (isValid_determinize hA).restrict_eq_self
  intro s hs
  simp only [decide_eq_true_eq]
  exact ((mem_states_determinize hA).mp hs).isReachable hA

theorem isTotal_determinize (hA : A.IsValid) : (A.determinize true).IsTotal := by
  intro s a hs ha
  have hd := (mem_states_determinize hA).mp hs
  exact ⟨_, (edge_determinize_iff_eq_step hA).mpr ⟨⟨hd, ha, fun _ => rfl⟩, rfl⟩⟩

theorem determinize_determinize (hA : A.IsValid) :
    (A.determinize keepSink).determinize keepSink = (A.determinize keepSink).map .singleton := by
  have hp : (A.determinize keepSink).isPartialDfa = true := isPartialDfa_determinize hA
  have hu := isPartialDfa_iff.mp hp
  rw [determinize_eq_map_reachablePart (isValid_determinize hA) hu, reachablePart_determinize hA]
  intro hk
  subst hk
  exact isTotal_determinize hA

/--
The subset construction renames the states of a deterministic automaton that some word leads to, each
of them to the set of this state alone, and leaves out the others. When it is repeated it only renames
all states once more.
-/
theorem toDfa_eq_map_reachablePart_and_toDfa_toDfa (hA : A.IsValid) :
    (A.isPartialDfa = true → A.toDfa = A.reachablePart.map .singleton ∧
      A.reachablePart.Distinguishes FinSet.singleton) ∧
    A.toDfa.toDfa = A.toDfa.map .singleton ∧
    A.toCompleteDfa.toCompleteDfa = A.toCompleteDfa.map .singleton := by
  refine ⟨?_, determinize_determinize hA, determinize_determinize hA⟩
  intro hp
  constructor
  · exact determinize_eq_map_reachablePart hA (isPartialDfa_iff.mp hp) nofun
  · intro p q _ _ h
    rw [← FinSet.mem_singleton, ← h, FinSet.mem_singleton]

def detached : Automaton Int where
  states := .ofList [0, 1, 2, 3]
  alphabet := .ofList ['a', 'b']
  transitions := .ofTriples [(0, 'a', 1), (1, 'a', 2), (1, 'b', 0), (3, 'a', 0), (3, 'b', 3)]
  initial := 0
  finals := .ofList [2, 3]

theorem isValid_detached : detached.IsValid := by
  apply isValid_of_checked (A := detached)
  rfl

theorem toDfa_eq_map_reachablePart_and_toDfa_toDfa_detached :
    detached.IsValid ∧ detached.isPartialDfa = true ∧
      detached.toDfa = detached.reachablePart.map .singleton ∧
      detached.toDfa.toDfa = detached.toDfa.map .singleton ∧
      detached.toCompleteDfa.toCompleteDfa = detached.toCompleteDfa.map .singleton := by
  rcases toDfa_eq_map_reachablePart_and_toDfa_toDfa isValid_detached with ⟨h, hdfa, hcomplete⟩
  have hp : detached.isPartialDfa = true := by
    rfl
  exact ⟨isValid_detached, hp, (h hp).1, hdfa, hcomplete⟩

end Automaton

end RegLang
