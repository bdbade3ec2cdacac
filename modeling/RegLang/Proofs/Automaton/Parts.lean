import RegLang.Proofs.Automaton.Edge

/-!
This module contains what becomes of an automaton that is given by its parts. From lists of states,
symbols, transitions and final states only their members count, and a relation that is grouped by
states and symbols gives the same automaton, whatever it stores without a successor.
-/

namespace RegLang

namespace FinMap

variable {κ β γ δ : Type} [Ordered κ] {m : FinMap κ β} {f : κ → β → Option γ}

theorem entries_filterMap :
    (m.filterMap f).entries = m.entries.filterMap fun e => (f e.1 e.2).map (e.1, ·) := rfl

theorem findSome?_filterMap {p : κ → γ → Option δ} {r : κ → β → Option δ}
    (h : ∀ k b, m.get? k = some b → (f k b).bind (p k) = r k b) :
    ((m.filterMap f).entries.findSome? fun e => p e.1 e.2) =
      m.entries.findSome? fun e => r e.1 e.2 := by
  have h : ∀ e, e ∈ m.entries → (f e.1 e.2).bind (p e.1) = r e.1 e.2 :=
    fun e he => h e.1 e.2 (mem_entries.mp he)
  rw [entries_filterMap]
  generalize m.entries = es at h
  induction es with
  | nil => rfl
  | cons e es ih =>
    have ih := ih fun e' he => h e' (List.mem_cons_of_mem e he)
    have he := h e List.mem_cons_self
    rw [List.filterMap_cons, List.findSome?_cons, ← ih, ← he]
    cases f e.1 e.2 with
    | none => rfl
    | some c => exact List.findSome?_cons

end FinMap

namespace Transitions

variable {σ : Type} [Ordered σ] {t : Transitions σ} {triples others : List (σ × Char × σ)}
  {states : FinSet σ} {alphabet : FinSet Char} {row : FinMap Char (FinSet σ)} {p : σ} {a : Char}

theorem ofTriples_congr (h : ∀ t, t ∈ triples ↔ t ∈ others) :
    ofTriples triples = ofTriples others := by
  apply isPruned_ofTriples.ext isPruned_ofTriples
  intro p a q
  rw [holds_ofTriples, holds_ofTriples, h]

/--
Whether a relation holds for the given triples, and what it stores without a successor it stores
under the given states and symbols.
-/
structure Groups (t : Transitions σ) (triples : List (σ × Char × σ)) (states : FinSet σ)
    (alphabet : FinSet Char) : Prop where
  holds_iff : ∀ p a q, t.Holds p a q ↔ (p, a, q) ∈ triples
  source_mem : ∀ p row, t.get? p = some row → p ∈ states ∨ ∃ a q, t.Holds p a q
  symbol_mem : ∀ p a targets, t.successors? p a = some targets →
    a ∈ alphabet ∨ ∃ q, t.Holds p a q

theorem Groups.pruned_eq (ht : t.Groups triples states alphabet) :
    t.pruned = ofTriples triples := by
  apply (isPruned_pruned t).ext isPruned_ofTriples
  intro p a q
  rw [holds_pruned, ht.holds_iff, holds_ofTriples]

theorem Groups.mem_alphabet (ht : t.Groups triples states alphabet) (hr : t.get? p = some row)
    (hc : row.get? a = some .empty) : a ∈ alphabet := by
  have hs : t.successors? p a = some .empty := successors?_eq_some_iff.mpr ⟨row, hr, hc⟩
  rcases ht.symbol_mem p a .empty hs with ha | ⟨q, targets, hs', hq⟩
  · exact ha
  · rw [hs, Option.some.injEq] at hs'
    rw [← hs'] at hq
    exact absurd hq FinSet.not_mem_empty

def prunedRow (row : FinMap Char (FinSet σ)) : FinMap Char (FinSet σ) :=
  row.filterMap fun _ targets => if targets.isEmpty then none else some targets

theorem pruned_eq_filterMap :
    t.pruned = t.filterMap fun _ row =>
      if (prunedRow row).isEmpty then none else some (prunedRow row) := rfl

theorem prunedRow_ne_empty (hr : t.get? p = some row) (h : ∃ a q, t.Holds p a q) :
    prunedRow row ≠ .empty := by
  rcases h with ⟨a, q, targets, hs, hq⟩
  rcases successors?_eq_some_iff.mp hs with ⟨row', hr', hc⟩
  rw [hr, Option.some.injEq] at hr'
  subst hr'
  intro e
  have hget : (prunedRow row).get? a = some targets := by
    unfold prunedRow
    rw [FinMap.get?_filterMap, hc, Option.bind_some, if_neg]
    rw [FinSet.isEmpty_iff]
    exact FinSet.ne_empty_iff.mpr ⟨q, hq⟩
  rw [e] at hget
  cases hget

end Transitions

namespace Automaton

variable {σ : Type} [Ordered σ]

section Assembled

variable {states states' : List σ} {alphabet alphabet' : List Char}
  {triples triples' : List (σ × Char × σ)} {initial p q : σ} {finals finals' : List σ} {a : Char}
  {A : Automaton σ}

theorem isConsistent_iff_of_isPruned (h : A.transitions.IsPruned) :
    A.IsConsistent ↔ ¬ epsilon ∈ A.alphabet ∧ A.initial ∈ A.states ∧
      (∀ q, q ∈ A.finals → q ∈ A.states) ∧
        ∀ p a q, A.Edge p a q → p ∈ A.states ∧ a ∈ A.alphabet ∧ q ∈ A.states := by
  constructor
  · intro hA
    have hvalid : A.IsValid := { toIsConsistent := hA, isPruned := h }
    exact ⟨hA.epsilon_not_mem, hA.initial_mem, hA.finals_mem, fun p a q e => hvalid.mem_of_edge e⟩
  · rintro ⟨hε, hi, hf, he⟩
    exact (isValid_of_edges h hε hi hf he).toIsConsistent

def assembled (states : List σ) (alphabet : List Char) (triples : List (σ × Char × σ)) (initial : σ)
    (finals : List σ) : Automaton σ where
  states := .ofList states
  alphabet := .ofList alphabet
  transitions := .ofTriples triples
  initial := initial
  finals := .ofList finals

theorem assembled_congr (hs : ∀ q, q ∈ states' ↔ q ∈ states)
    (ha : ∀ a, a ∈ alphabet' ↔ a ∈ alphabet)
    (ht : ∀ t, t ∈ triples' ↔ t ∈ triples) (hf : ∀ q, q ∈ finals' ↔ q ∈ finals) :
    assembled states' alphabet' triples' initial finals' =
      assembled states alphabet triples initial finals := by
  have hstates : FinSet.ofList states' = .ofList states := by
    apply FinSet.ext
    simp only [FinSet.mem_ofList, hs, implies_true]
  have halphabet : FinSet.ofList alphabet' = .ofList alphabet := by
    apply FinSet.ext
    simp only [FinSet.mem_ofList, ha, implies_true]
  have hfinals : FinSet.ofList finals' = .ofList finals := by
    apply FinSet.ext
    simp only [FinSet.mem_ofList, hf, implies_true]
  unfold assembled
  rw [hstates, halphabet, hfinals, Transitions.ofTriples_congr ht]

theorem edge_assembled :
    (assembled states alphabet triples initial finals).Edge p a q ↔ (p, a, q) ∈ triples :=
  Transitions.holds_ofTriples

theorem isConsistent_assembled_iff :
    (assembled states alphabet triples initial finals).IsConsistent ↔
      ¬ epsilon ∈ alphabet ∧ initial ∈ states ∧ (∀ q, q ∈ finals → q ∈ states) ∧
        ∀ p a q, (p, a, q) ∈ triples → p ∈ states ∧ a ∈ alphabet ∧ q ∈ states := by
  have hpruned : (assembled states alphabet triples initial finals).transitions.IsPruned :=
    Transitions.isPruned_ofTriples
  rw [isConsistent_iff_of_isPruned hpruned]
  simp only [edge_assembled]
  unfold assembled
  simp only [FinSet.mem_ofList]

theorem successors?_assembled_eq_some_iff {targets : FinSet σ} :
    (assembled states alphabet triples initial finals).successors? p a = some targets ↔
      (∃ q, (p, a, q) ∈ triples) ∧ ∀ q, q ∈ targets ↔ (p, a, q) ∈ triples := by
  unfold successors? assembled
  simp only [Transitions.isPruned_ofTriples.successors?_eq_some_iff_holds,
    Transitions.holds_ofTriples, FinSet.ne_empty_iff]
  apply and_congr_left
  intro ht
  simp only [ht]

theorem successors?_assembled_eq_none_iff :
    (assembled states alphabet triples initial finals).successors? p a = none ↔
      ∀ q, ¬ (p, a, q) ∈ triples := by
  constructor
  · intro hnone q hq
    have e : (assembled states alphabet triples initial finals).Edge p a q := edge_assembled.mpr hq
    rcases e with ⟨targets, hs, _⟩
    rw [successors?, hs] at hnone
    cases hnone
  · intro hq
    cases hs : (assembled states alphabet triples initial finals).successors? p a with
    | none => rfl
    | some targets =>
      rcases (successors?_assembled_eq_some_iff.mp hs).1 with ⟨q, h⟩
      exact absurd h (hq q)

end Assembled

variable [ToString σ]

section Pruned

variable {A : Automaton σ} {p : σ} {row : FinMap Char (FinSet σ)}

theorem findSome?_cellProblem?_prunedRow
    (h : ∀ a, row.get? a = some .empty → a ∈ A.alphabet) :
    ((Transitions.prunedRow row).entries.findSome? fun cell => A.cellProblem? cell.1 cell.2) =
      row.entries.findSome? fun cell => A.cellProblem? cell.1 cell.2 := by
  apply FinMap.findSome?_filterMap
  intro a targets hc
  split
  · next hempty =>
    -- Only the symbol of an empty set can be wrong.
    rw [FinSet.isEmpty_iff] at hempty
    subst hempty
    apply Eq.symm
    exact cellProblem?_eq_none_iff.mpr ⟨h a hc, fun q hq => absurd hq FinSet.not_mem_empty⟩
  · rfl

variable {triples : List (σ × Char × σ)}
  (h : A.transitions.Groups triples A.states A.alphabet)

include h

theorem rowProblem?_prunedRow (hr : A.transitions.get? p = some row) :
    (if (Transitions.prunedRow row).isEmpty then none else some (Transitions.prunedRow row)).bind
      (A.rowProblem? p) = A.rowProblem? p row := by
  have hcells := findSome?_cellProblem?_prunedRow fun a => h.mem_alphabet hr (a := a)
  split
  · next hempty =>
    rw [FinMap.isEmpty_iff] at hempty
    -- A row that holds for some successor is not emptied, so that this one has a declared state.
    rcases h.source_mem p row hr with hp | he
    · unfold rowProblem?
      rw [if_pos (FinSet.contains_iff.mpr hp), ← hcells, hempty]
      rfl
    · exact absurd hempty (Transitions.prunedRow_ne_empty hr he)
  · rw [Option.bind_some]
    unfold rowProblem?
    rw [hcells]

theorem checked_pruned : A.pruned.checked = A.checked := by
  have hrows : (A.pruned.transitions.entries.findSome? fun row => A.rowProblem? row.1 row.2) =
      A.transitions.entries.findSome? fun row => A.rowProblem? row.1 row.2 := by
    unfold pruned
    rw [Transitions.pruned_eq_filterMap]
    apply FinMap.findSome?_filterMap
    intro p row hr
    exact rowProblem?_prunedRow h hr
  have hproblem : A.pruned.problem? = A.problem? := by
    unfold problem?
    rw [← hrows]
    rfl
  have hpruned : A.pruned.pruned = A.pruned := by
    unfold pruned
    rw [(Transitions.isPruned_pruned _).pruned_eq]
  unfold checked
  rw [hproblem, hpruned]

end Pruned

section Check

variable {states states' : List σ} {alphabet alphabet' : List Char}
  {triples triples' : List (σ × Char × σ)} {initial : σ} {finals finals' : List σ}
  {A : Automaton σ}

theorem ofTriples_eq_checked :
    ofTriples states alphabet triples initial finals =
      (assembled states alphabet triples initial finals).checked := rfl

theorem ofTriples_congr (hs : ∀ q, q ∈ states' ↔ q ∈ states)
    (ha : ∀ a, a ∈ alphabet' ↔ a ∈ alphabet) (ht : ∀ t, t ∈ triples' ↔ t ∈ triples)
    (hf : ∀ q, q ∈ finals' ↔ q ∈ finals) :
    ofTriples states' alphabet' triples' initial finals' =
      ofTriples states alphabet triples initial finals := by
  rw [ofTriples_eq_checked, assembled_congr hs ha ht hf, ofTriples_eq_checked]

theorem ofTriples_of_epsilon_mem (h : epsilon ∈ alphabet) :
    ofTriples states alphabet triples initial finals = .error (.reservedSymbol epsilon) := by
  have hproblem : (assembled states alphabet triples initial finals).problem? =
      some (.reservedSymbol epsilon) := by
    unfold problem?
    apply if_pos
    exact FinSet.contains_iff.mpr (FinSet.mem_ofList.mpr h)
  rw [ofTriples_eq_checked, checked, hproblem]

theorem ofTriples_eq_ok_iff :
    ofTriples states alphabet triples initial finals = .ok A ↔
      (assembled states alphabet triples initial finals).IsConsistent ∧
        A = assembled states alphabet triples initial finals := by
  have hpruned : (assembled states alphabet triples initial finals).pruned =
      assembled states alphabet triples initial finals := by
    unfold pruned assembled
    rw [Transitions.isPruned_ofTriples.pruned_eq]
  rw [ofTriples_eq_checked, checked_eq_ok_iff, hpruned]

theorem exists_ofTriples_eq_ok_iff :
    (∃ A, ofTriples states alphabet triples initial finals = .ok A) ↔
      ¬ epsilon ∈ alphabet ∧ initial ∈ states ∧ (∀ q, q ∈ finals → q ∈ states) ∧
        ∀ p a q, (p, a, q) ∈ triples → p ∈ states ∧ a ∈ alphabet ∧ q ∈ states := by
  simp only [ofTriples_eq_ok_iff, exists_eq_right, isConsistent_assembled_iff]

theorem checked_eq_ofTriples {t : Transitions σ}
    (ht : t.Groups triples (.ofList states) (.ofList alphabet)) :
    checked
      { states := .ofList states
        alphabet := .ofList alphabet
        transitions := t
        initial := initial
        finals := .ofList finals } = ofTriples states alphabet triples initial finals := by
  rw [← checked_pruned ht, ofTriples_eq_checked]
  unfold pruned assembled
  rw [ht.pruned_eq]

end Check

/--
Lists of components make an automaton if they declare everything that they name and not `ε`. It
keeps exactly the given transitions. Neither order nor repetition in the lists makes a difference,
and the transitions may as well be given grouped by states and symbols, with empty groups among
them.
-/
theorem ofTriples_eq_checked_and_exists_eq_ok_iff (states : List σ) (alphabet : List Char)
    (triples : List (σ × Char × σ)) (initial : σ) (finals : List σ) :
    ((∃ A, ofTriples states alphabet triples initial finals = .ok A) ↔
      ¬ epsilon ∈ alphabet ∧ initial ∈ states ∧ (∀ q, q ∈ finals → q ∈ states) ∧
        ∀ p a q, (p, a, q) ∈ triples → p ∈ states ∧ a ∈ alphabet ∧ q ∈ states) ∧
    (∀ A, ofTriples states alphabet triples initial finals = .ok A →
      (∀ q, q ∈ A.states ↔ q ∈ states) ∧ (∀ a, a ∈ A.alphabet ↔ a ∈ alphabet) ∧
      A.initial = initial ∧ (∀ q, q ∈ A.finals ↔ q ∈ finals) ∧
      (∀ p a targets, A.successors? p a = some targets ↔
        (∃ q, (p, a, q) ∈ triples) ∧ ∀ q, q ∈ targets ↔ (p, a, q) ∈ triples) ∧
      ∀ p a, A.successors? p a = none ↔ ∀ q, ¬ (p, a, q) ∈ triples) ∧
    (∀ states' alphabet' triples' finals', (∀ q, q ∈ states' ↔ q ∈ states) →
      (∀ a, a ∈ alphabet' ↔ a ∈ alphabet) → (∀ t, t ∈ triples' ↔ t ∈ triples) →
      (∀ q, q ∈ finals' ↔ q ∈ finals) →
        ofTriples states' alphabet' triples' initial finals' =
          ofTriples states alphabet triples initial finals) ∧
    ∀ t : Transitions σ, t.Groups triples (.ofList states) (.ofList alphabet) →
      checked
        { states := .ofList states
          alphabet := .ofList alphabet
          transitions := t
          initial := initial
          finals := .ofList finals } = ofTriples states alphabet triples initial finals := by
  refine ⟨exists_ofTriples_eq_ok_iff, ?_, ?_, ?_⟩
  · intro A h
    rcases ofTriples_eq_ok_iff.mp h with ⟨_, rfl⟩
    refine ⟨?_, ?_, rfl, ?_, ?_, ?_⟩
    · intro q
      apply FinSet.mem_ofList
    · intro a
      apply FinSet.mem_ofList
    · intro q
      apply FinSet.mem_ofList
    · intro p a targets
      apply successors?_assembled_eq_some_iff
    · intro p a
      apply successors?_assembled_eq_none_iff
  · intro states' alphabet' triples' finals' hs ha ht hf
    exact ofTriples_congr hs ha ht hf
  · intro t ht
    exact checked_eq_ofTriples ht

def scattered : List (Int × Char × Int) := [(0, 'a', 2), (2, 'b', 2), (0, 'a', 1), (0, 'a', 2)]

def gathered : Transitions Int :=
  .ofRows [(1, []), (2, [('b', [2]), ('a', [])]), (0, [('a', [1, 2])])]

theorem groups_gathered :
    gathered.Groups scattered (.ofList [2, 0, 1, 0]) (.ofList ['b', 'a']) where
  holds_iff p a q := by
    have hsub : ∀ t, t ∈ gathered.triples → t ∈ scattered := by decide
    have hsup : ∀ t, t ∈ scattered → t ∈ gathered.triples := by decide
    rw [← Transitions.mem_triples]
    exact ⟨hsub _, hsup _⟩
  source_mem p row hr := by
    have hkeys : ∀ p, p ∈ gathered.keys.toList → p ∈ (FinSet.ofList [2, 0, 1, 0]).toList := by
      decide
    exact .inl (hkeys p (FinMap.mem_keys.mpr ⟨row, hr⟩))
  symbol_mem p a targets hs := by
    have hkeys : (gathered.values.flatMap fun row => row.keys.toList).all
        (FinSet.ofList ['b', 'a']).contains = true := by decide
    rcases Transitions.successors?_eq_some_iff.mp hs with ⟨row, hr, hc⟩
    have ha : a ∈ gathered.values.flatMap fun row => row.keys.toList := by
      apply List.mem_flatMap.mpr
      exact ⟨row, FinMap.mem_values.mpr ⟨p, hr⟩, FinMap.mem_keys.mpr ⟨targets, hc⟩⟩
    exact .inl (FinSet.contains_iff.mp (List.all_eq_true.mp hkeys a ha))

theorem ofTriples_eq_checked_and_exists_eq_ok_iff_scattered :
    ∃ A, ofTriples [2, 0, 1, 0] ['b', 'a'] scattered 0 [2] = .ok A ∧
      A.successors? 0 'a' = some (.ofList [1, 2]) ∧ A.successors? 1 'a' = none ∧
      ofTriples [0, 1, 2] ['a', 'b', 'b'] scattered.reverse 0 [2, 2] = .ok A ∧
      checked
        { states := .ofList [2, 0, 1, 0]
          alphabet := .ofList ['b', 'a']
          transitions := gathered
          initial := 0
          finals := .ofList [2] } = .ok A := by
  rcases ofTriples_eq_checked_and_exists_eq_ok_iff [2, 0, 1, 0] ['b', 'a'] scattered 0 [2] with
    ⟨hok, hparts, hlists, hgroups⟩
  have htriples : ∀ t, t ∈ scattered →
      t.1 ∈ [2, 0, 1, 0] ∧ t.2.1 ∈ ['b', 'a'] ∧ t.2.2 ∈ [2, 0, 1, 0] := by decide
  rcases hok.mpr ⟨by decide, by decide, by decide, fun p a q h => htriples (p, a, q) h⟩ with ⟨A, hA⟩
  rcases hparts A hA with ⟨_, _, _, _, hsome, hnone⟩
  refine ⟨A, hA, ?_, ?_, ?_, ?_⟩
  · apply (hsome 0 'a' _).mpr
    refine ⟨⟨1, by decide⟩, ?_⟩
    intro q
    simp only [FinSet.mem_ofList, scattered, List.mem_cons, Prod.mk.injEq]
    grind
  · apply (hnone 1 'a').mpr
    simp [scattered]
  · rw [← hA]
    apply hlists
    · grind
    · grind
    · exact fun t => List.mem_reverse
    · grind
  · rw [hgroups gathered groups_gathered, hA]

end Automaton

end RegLang
