import RegLang.Proofs.Automaton.Reached
import RegLang.Proofs.Ordered.Shortlex

/-!
This module contains the order in which the subset construction visits sets of states: each of them
comes at the place of the least word that leads to it, where shorter words are less than longer ones
and words of one length are ordered by their symbols.
-/

namespace RegLang

namespace Automaton

variable {σ : Type} [Ordered σ] {A : Automaton σ} {keepSink : Bool} {s t : FinSet σ} {a : Char}
  {u v w : List Char} {visited waiting : List (List Char)} {m : Char × FinSet σ}

def Admits (A : Automaton σ) (keepSink : Bool) (word : List Char) : Prop :=
  (∀ c, c ∈ word → c ∈ A.alphabet) ∧ (A.reached word = .empty → keepSink = true)

theorem admits_nil : A.Admits keepSink [] := ⟨nofun, nofun⟩

theorem admits_append_singleton_iff :
    A.Admits keepSink (w ++ [a]) ↔
      A.Admits keepSink w ∧ (a, A.reached (w ++ [a])) ∈ (A.visit keepSink (A.reached w)).moves := by
  rw [mem_moves_visit]
  unfold Admits
  simp only [reached_append_singleton, true_and, List.mem_append, List.mem_singleton, or_imp,
    forall_and, forall_eq]
  constructor
  · rintro ⟨⟨hw, ha⟩, hk⟩
    refine ⟨⟨hw, ?_⟩, ha, hk⟩
    -- Nothing but the empty set follows the empty set.
    intro he
    apply hk
    rw [he, step_empty]
  · rintro ⟨⟨hw, _⟩, ha, hk⟩
    exact ⟨⟨hw, ha⟩, hk⟩

theorem path_determinize_iff (hA : A.IsValid) :
    (A.determinize keepSink).Path (.singleton A.initial) w s ↔
      A.Admits keepSink w ∧ s = A.reached w := by
  induction w using List.reverseRecOn generalizing s with
  | nil =>
    rw [path_nil, and_iff_right admits_nil, eq_comm]
    rfl
  | append_singleton w a ih =>
    have hd (hw : A.Admits keepSink w) : A.Discovers keepSink (A.reached w) :=
      Discovers.of_path hA .initial (ih.mpr ⟨hw, rfl⟩)
    simp only [path_append, ih, path_cons, path_nil, exists_eq_right, edge_determinize hA]
    rw [admits_append_singleton_iff]
    constructor
    · rintro ⟨_, ⟨hw, ht⟩, _, hm⟩
      subst ht
      have hs : s = A.reached (w ++ [a]) := by
        rw [reached_append_singleton]
        exact (mem_moves_visit.mp hm).2.1
      exact ⟨⟨hw, hs ▸ hm⟩, hs⟩
    · rintro ⟨⟨hw, hm⟩, hs⟩
      exact ⟨_, ⟨hw, rfl⟩, hd hw, hs ▸ hm⟩

def Replaces (A : Automaton σ) (v w : List Char) : Prop :=
  A.reached v = A.reached w ∧ (v = w ∨ List.Shortlex Ordered.Lt v w)

theorem replaces_self : A.Replaces w w := ⟨rfl, .inl rfl⟩

theorem Replaces.trans (huv : A.Replaces u v) (hvw : A.Replaces v w) : A.Replaces u w := by
  refine ⟨huv.1.trans hvw.1, ?_⟩
  rcases huv.2 with e | huv
  · rw [e]
    exact hvw.2
  · right
    rcases hvw.2 with e | hvw
    · rw [← e]
      exact huv
    · exact Ordered.shortlex_trans huv hvw

theorem Replaces.append_singleton (h : A.Replaces v w) (a : Char) :
    A.Replaces (v ++ [a]) (w ++ [a]) := by
  constructor
  · rw [reached_append_singleton, reached_append_singleton, h.1]
  · rcases h.2 with e | h
    · left
      rw [e]
    · right
      exact Ordered.shortlex_append_singleton h a a

theorem pairwise_moves_visit :
    (A.visit keepSink s).moves.Pairwise fun m n => Ordered.Lt m.1 n.1 := by
  unfold visit
  apply A.alphabet.increasing.filterMap
  intro a b hab m hm n hn
  rw [Option.ite_none_left_eq_some, Option.some.injEq] at hm hn
  rw [← hm.2, ← hn.2]
  exact hab

theorem reached_of_mem_moves_visit (hm : m ∈ (A.visit keepSink (A.reached w)).moves) :
    A.reached (w ++ [m.1]) = m.2 := by
  rw [reached_append_singleton]
  exact (mem_moves_visit.mp hm).2.1.symm

namespace Exploration

variable {e : Exploration σ}

/--
Words that lead to the sets of a construction, those that were visited and those in the queue. They
come in increasing order, and the words on which the visited sets go on can be replaced by them.
-/
structure Schedule (A : Automaton σ) (keepSink : Bool) (e : Exploration σ)
    (visited waiting : List (List Char)) : Prop where
  visits : e.visits.map Visit.state = visited.map A.reached
  queue : e.queue = waiting.map A.reached
  increasing : (visited ++ waiting).Pairwise (List.Shortlex Ordered.Lt)
  admits : ∀ w, w ∈ visited ++ waiting → A.Admits keepSink w
  prolongs : ∀ w, w ∈ waiting → w = [] ∨ ∃ u a, u ∈ visited ∧ w = u ++ [a]
  covers_nil : ∃ v, v ∈ visited ++ waiting ∧ A.Replaces v []
  covers : ∀ u a, u ∈ visited → A.Admits keepSink (u ++ [a]) →
    ∃ v, v ∈ visited ++ waiting ∧ A.Replaces v (u ++ [a])

theorem schedule_start (A : Automaton σ) (keepSink : Bool) :
    (start A).Schedule A keepSink [] [[]] where
  visits := rfl
  queue := rfl
  increasing := List.pairwise_singleton _ _
  admits _ hw := List.mem_singleton.mp hw ▸ admits_nil
  prolongs _ hw := .inl (List.mem_singleton.mp hw)
  covers_nil := ⟨[], List.mem_singleton_self _, replaces_self⟩
  covers _ _ hu := absurd hu List.not_mem_nil

def pushed (A : Automaton σ) (keepSink : Bool) (e : Exploration σ) (word : List Char) :
    List (List Char) :=
  ((A.visit keepSink (A.reached word)).moves.filter fun m =>
    !(e.processed.insert (A.reached word)).contains m.2).map fun m => word ++ [m.1]

theorem mem_pushed_iff :
    v ∈ pushed A keepSink e w ↔ ∃ a, v = w ++ [a] ∧
      (a, A.reached v) ∈ (A.visit keepSink (A.reached w)).moves ∧
      ¬ A.reached v ∈ e.processed.insert (A.reached w) := by
  unfold pushed
  rw [List.mem_map]
  constructor
  · rintro ⟨m, hm, hv⟩
    rw [List.mem_filter, Bool.not_eq_true', FinSet.contains_eq_false_iff] at hm
    rw [← hv, reached_of_mem_moves_visit hm.1]
    exact ⟨m.1, rfl, hm⟩
  · rintro ⟨a, hv, hm, hn⟩
    refine ⟨(a, A.reached v), ?_, hv.symm⟩
    rw [List.mem_filter, Bool.not_eq_true', FinSet.contains_eq_false_iff]
    exact ⟨hm, hn⟩

theorem map_reached_pushed :
    (pushed A keepSink e w).map A.reached =
      ((A.visit keepSink (A.reached w)).moves.map Prod.snd).filter fun next =>
        !(e.processed.insert (A.reached w)).contains next := by
  unfold pushed
  rw [List.filter_map, List.map_map]
  apply List.map_congr_left
  intro m hm
  exact reached_of_mem_moves_visit (List.mem_of_mem_filter hm)

theorem pairwise_pushed :
    (pushed A keepSink e w).Pairwise (List.Shortlex Ordered.Lt) := by
  unfold pushed
  rw [List.pairwise_map]
  apply List.Pairwise.filter
  apply pairwise_moves_visit.imp
  intro m n h
  apply List.Shortlex.append_left
  exact (List.shortlex_singleton_iff m.1 n.1).mpr h

namespace Schedule

theorem exists_replaces_of_mem_processed (h : e.Schedule A keepSink visited (w :: waiting))
    (inv : e.Invariant A keepSink) (hs : A.reached v ∈ e.processed) :
    ∃ u, u ∈ visited ∧ A.reached u = A.reached v ∧ List.Shortlex Ordered.Lt u w := by
  rw [inv.mem_processed, h.visits, List.mem_map] at hs
  rcases hs with ⟨u, hu, e⟩
  exact ⟨u, hu, e, (List.pairwise_append.mp h.increasing).2.2 u hu w List.mem_cons_self⟩

theorem exists_replaces_of_skip (h : e.Schedule A keepSink visited (w :: waiting))
    (inv : e.Invariant A keepSink) (hs : A.reached w ∈ e.processed)
    (hv : ∃ v, v ∈ visited ++ w :: waiting ∧ A.Replaces v u) :
    ∃ v, v ∈ visited ++ waiting ∧ A.Replaces v u := by
  rcases hv with ⟨v, hv, hvu⟩
  simp only [List.mem_append, List.mem_cons] at hv ⊢
  rcases hv with hv | hv | hv
  · exact ⟨v, .inl hv, hvu⟩
  · -- The set after `w` was visited before, on a word that is less.
    subst hv
    rcases h.exists_replaces_of_mem_processed inv hs with ⟨x, hx, hreached, hlt⟩
    exact ⟨x, .inl hx, Replaces.trans ⟨hreached, .inr hlt⟩ hvu⟩
  · exact ⟨v, .inr hv, hvu⟩

theorem skip (h : e.Schedule A keepSink visited (w :: waiting)) (inv : e.Invariant A keepSink)
    (hs : A.reached w ∈ e.processed) :
    ({ e with queue := waiting.map A.reached } : Exploration σ).Schedule A keepSink visited
      waiting := by
  have hsub : (visited ++ waiting).Sublist (visited ++ w :: waiting) :=
    (List.sublist_cons_self w waiting).append_left visited
  constructor
  case visits => exact h.visits
  case queue => rfl
  case increasing => exact h.increasing.sublist hsub
  case admits =>
    intro v hv
    exact h.admits v (hsub.subset hv)
  case prolongs =>
    intro v hv
    exact h.prolongs v (List.mem_cons_of_mem w hv)
  case covers_nil => exact h.exists_replaces_of_skip inv hs h.covers_nil
  case covers =>
    intro u a hu ha
    exact h.exists_replaces_of_skip inv hs (h.covers u a hu ha)

theorem lt_pushed (h : e.Schedule A keepSink visited (w :: waiting)) (a : Char)
    (hv : v ∈ visited ++ w :: waiting) : List.Shortlex Ordered.Lt v (w ++ [a]) := by
  have hlt (u : List Char) (hu : u ∈ visited) : List.Shortlex Ordered.Lt u w :=
    (List.pairwise_append.mp h.increasing).2.2 u hu w List.mem_cons_self
  simp only [List.mem_append, List.mem_cons] at hv
  rcases hv with hv | hv | hv
  · exact (hlt v hv).append_right [a]
  · rw [hv]
    exact Ordered.shortlex_self_append_singleton
  · -- What waits prolongs a visited word, and that is less than `w`.
    rcases h.prolongs v (List.mem_cons_of_mem w hv) with hv | ⟨u, b, hu, hv⟩
    · rw [hv]
      apply List.Shortlex.of_length_lt
      simp
    · rw [hv]
      exact Ordered.shortlex_append_singleton (hlt u hu) b a

theorem exists_replaces_of_visit (h : e.Schedule A keepSink visited (w :: waiting))
    (inv : e.Invariant A keepSink) (ha : A.Admits keepSink (w ++ [a])) :
    ∃ v, (v ∈ visited ∨ v = w ∨ v ∈ pushed A keepSink e w) ∧ A.Replaces v (w ++ [a]) := by
  have hm := (admits_append_singleton_iff.mp ha).2
  by_cases hp : A.reached (w ++ [a]) ∈ e.processed.insert (A.reached w)
  · rcases FinSet.mem_insert.mp hp with hp | hp
    · exact ⟨w, .inr (.inl rfl), hp.symm, .inr Ordered.shortlex_self_append_singleton⟩
    · rcases h.exists_replaces_of_mem_processed inv hp with ⟨u, hu, hreached, hlt⟩
      exact ⟨u, .inl hu, hreached, .inr (hlt.append_right [a])⟩
  · exact ⟨w ++ [a], .inr (.inr (mem_pushed_iff.mpr ⟨a, rfl, hm, hp⟩)), replaces_self⟩

theorem visit (h : e.Schedule A keepSink visited (w :: waiting)) (inv : e.Invariant A keepSink)
    (hs : ¬ A.reached w ∈ e.processed) :
    (e.step A keepSink).Schedule A keepSink (visited ++ [w])
      (waiting ++ pushed A keepSink e w) := by
  have hwords : visited ++ [w] ++ (waiting ++ pushed A keepSink e w) =
      (visited ++ w :: waiting) ++ pushed A keepSink e w := by
    simp
  constructor
  case visits =>
    rw [step_of_not_mem h.queue hs, List.map_append, List.map_append, h.visits]
    rfl
  case queue =>
    rw [step_of_not_mem h.queue hs, List.map_append, map_reached_pushed]
  case increasing =>
    rw [hwords, List.pairwise_append]
    refine ⟨h.increasing, pairwise_pushed, ?_⟩
    intro v hv x hx
    rcases mem_pushed_iff.mp hx with ⟨a, hx, _⟩
    rw [hx]
    exact h.lt_pushed a hv
  case admits =>
    intro v hv
    rw [hwords, List.mem_append] at hv
    rcases hv with hv | hv
    · exact h.admits v hv
    · rcases mem_pushed_iff.mp hv with ⟨a, hv, hm, _⟩
      subst hv
      have hw := h.admits w (List.mem_append_right _ List.mem_cons_self)
      exact admits_append_singleton_iff.mpr ⟨hw, hm⟩
  case prolongs =>
    intro v hv
    rcases List.mem_append.mp hv with hv | hv
    · rcases h.prolongs v (List.mem_cons_of_mem w hv) with hv | ⟨u, a, hu, hv⟩
      · exact .inl hv
      · exact .inr ⟨u, a, List.mem_append_left _ hu, hv⟩
    · rcases mem_pushed_iff.mp hv with ⟨a, hv, _⟩
      exact .inr ⟨w, a, List.mem_append_right _ (List.mem_singleton_self w), hv⟩
  case covers_nil =>
    rcases h.covers_nil with ⟨v, hv, hr⟩
    rw [hwords]
    exact ⟨v, List.mem_append_left _ hv, hr⟩
  case covers =>
    intro u a hu ha
    rw [hwords]
    rcases List.mem_append.mp hu with hu | hu
    · rcases h.covers u a hu ha with ⟨v, hv, hr⟩
      exact ⟨v, List.mem_append_left _ hv, hr⟩
    · rw [List.mem_singleton.mp hu] at ha ⊢
      rcases h.exists_replaces_of_visit inv ha with ⟨v, hv, hr⟩
      refine ⟨v, ?_, hr⟩
      simp only [List.mem_append, List.mem_cons]
      rcases hv with hv | hv | hv
      · exact .inl (.inl hv)
      · exact .inl (.inr (.inl hv))
      · exact .inr hv

theorem exists_step (h : e.Schedule A keepSink visited waiting) (inv : e.Invariant A keepSink) :
    ∃ visited waiting, (e.step A keepSink).Schedule A keepSink visited waiting := by
  cases waiting with
  | nil =>
    have hstep : e.step A keepSink = e := by
      unfold Exploration.step
      rw [h.queue]
      rfl
    rw [hstep]
    exact ⟨visited, [], h⟩
  | cons w waiting =>
    by_cases hs : A.reached w ∈ e.processed
    · rw [step_of_mem h.queue hs]
      exact ⟨visited, waiting, h.skip inv hs⟩
    · exact ⟨_, _, h.visit inv hs⟩

theorem exists_run (h : e.Schedule A keepSink visited waiting) (inv : e.Invariant A keepSink)
    (fuel : Nat) : ∃ visited waiting, (e.run A keepSink fuel).Schedule A keepSink visited waiting := by
  induction fuel generalizing e visited waiting with
  | zero => exact ⟨visited, waiting, h⟩
  | succ fuel ih =>
    unfold Exploration.run
    split
    · exact ⟨visited, waiting, h⟩
    · rcases h.exists_step inv with ⟨_, _, h⟩
      exact ih h inv.step

theorem exists_replaces (h : e.Schedule A keepSink visited []) (hv : A.Admits keepSink v) :
    ∃ u, u ∈ visited ∧ A.Replaces u v := by
  induction v using List.reverseRecOn with
  | nil =>
    rcases h.covers_nil with ⟨u, hu, hr⟩
    rw [List.append_nil] at hu
    exact ⟨u, hu, hr⟩
  | append_singleton v a ih =>
    rcases admits_append_singleton_iff.mp hv with ⟨hv, hm⟩
    rcases ih hv with ⟨u, hu, hr⟩
    -- The visited set goes on with `a` as the set after `v` does.
    have ha : A.Admits keepSink (u ++ [a]) := by
      apply admits_append_singleton_iff.mpr
      rw [(hr.append_singleton a).1, hr.1]
      exact ⟨h.admits u (List.mem_append_left _ hu), hm⟩
    rcases h.covers u a hu ha with ⟨x, hx, hxu⟩
    rw [List.append_nil] at hx
    exact ⟨x, hx, hxu.trans (hr.append_singleton a)⟩

end Schedule

end Exploration

theorem exists_schedule_explore (hA : A.IsValid) (keepSink : Bool) :
    ∃ words, (A.explore keepSink).Schedule A keepSink words [] := by
  have hstart := Exploration.schedule_start A keepSink
  rcases hstart.exists_run Exploration.invariant_start _ with ⟨words, waiting, h⟩
  have hwaiting : waiting = [] := by
    rw [← List.map_eq_nil_iff (f := A.reached), ← h.queue]
    exact queue_explore hA
  exact ⟨words, hwaiting ▸ h⟩

theorem exists_words_explore (hA : A.IsValid) (keepSink : Bool) :
    ∃ words : List (List Char),
      (A.explore keepSink).visits.map Visit.state = words.map A.reached ∧
      words.Pairwise (List.Shortlex Ordered.Lt) ∧
      ∀ w, w ∈ words → A.Admits keepSink w ∧
        ∀ v, A.Admits keepSink v → A.reached v = A.reached w → A.Replaces w v := by
  rcases exists_schedule_explore hA keepSink with ⟨words, h⟩
  have hincreasing := h.increasing
  rw [List.append_nil] at hincreasing
  refine ⟨words, h.visits, hincreasing, ?_⟩
  intro w hw
  refine ⟨h.admits w (List.mem_append_left _ hw), ?_⟩
  intro v hv hreached
  rcases h.exists_replaces hv with ⟨u, hu, hr⟩
  -- Each set is visited once, so the word that replaces `v` is `w`.
  have hnodup := (invariant_explore A keepSink).nodup
  rw [h.visits] at hnodup
  have e := List.inj_on_of_nodup_map hnodup hu hw (hr.1.trans hreached)
  rw [← e]
  exact hr

end Automaton

end RegLang
