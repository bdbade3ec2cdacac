import RegLang.FinMap.Lemmas
import RegLang.Transitions.Basic

/-!
This module contains what the operations on transition relations do to the triples for which a
relation holds, and that a relation without empty rows and sets is determined by them.
-/

namespace RegLang

namespace Transitions

variable {σ : Type} [Ordered σ] {t u : Transitions σ} {row : FinMap Char (FinSet σ)}
  {targets : FinSet σ} {p q : σ} {a : Char}

def Holds (t : Transitions σ) (source : σ) (symbol : Char) (target : σ) : Prop :=
  ∃ targets, t.successors? source symbol = some targets ∧ target ∈ targets

structure IsPruned (t : Transitions σ) : Prop where
  row_ne_empty : ∀ p row, t.get? p = some row → row ≠ .empty
  targets_ne_empty : ∀ p a targets, t.successors? p a = some targets → targets ≠ .empty

theorem successors?_eq_some_iff :
    t.successors? p a = some targets ↔ ∃ row, t.get? p = some row ∧ row.get? a = some targets :=
  Option.bind_eq_some_iff

theorem mem_successors_getD_iff : q ∈ (t.successors? p a).getD .empty ↔ t.Holds p a q := by
  unfold Holds
  cases t.successors? p a <;> simp

theorem mem_triples : (p, a, q) ∈ t.triples ↔ t.Holds p a q := by
  simp only [triples, List.mem_flatMap, List.mem_map, Prod.exists, FinMap.mem_entries,
    FinSet.mem_toList, Prod.mk.injEq, Holds, successors?_eq_some_iff]
  constructor
  · rintro ⟨_, row, hr, _, targets, hc, _, hq, rfl, rfl, rfl⟩
    exact ⟨targets, ⟨row, hr, hc⟩, hq⟩
  · rintro ⟨targets, ⟨row, hr, hc⟩, hq⟩
    exact ⟨p, row, hr, a, targets, hc, q, hq, rfl, rfl, rfl⟩

theorem not_holds_empty : ¬ Holds (.empty : Transitions σ) p a q := by
  simp [Holds, successors?]

theorem mem_addCells {cells : List (Char × List σ)} :
    q ∈ ((cells.foldl (fun r cell => r.update cell.1 fun targets =>
      (FinSet.ofList cell.2).union (targets.getD .empty)) row).get? a).getD .empty ↔
      q ∈ (row.get? a).getD .empty ∨ ∃ cell, cell ∈ cells ∧ cell.1 = a ∧ q ∈ cell.2 := by
  induction cells generalizing row with
  | nil => simp
  | cons cell cells ih =>
    rw [List.foldl_cons, ih]
    by_cases h : a = cell.1
    · subst h
      rw [FinMap.get?_update_self]
      simp [or_assoc, or_left_comm]
    · rw [FinMap.get?_update_of_ne h]
      simp [Ne.symm h]

theorem holds_addRow {source : σ} {cells : List (Char × List σ)} :
    (t.addRow source cells).Holds p a q ↔
      t.Holds p a q ∨ source = p ∧ ∃ cell, cell ∈ cells ∧ cell.1 = a ∧ q ∈ cell.2 := by
  simp only [← mem_successors_getD_iff, successors?, addRow]
  by_cases h : p = source
  · subst h
    rw [FinMap.get?_update_self, Option.bind_some, mem_addCells]
    cases t.get? p <;> simp
  · rw [FinMap.get?_update_of_ne h]
    simp [Ne.symm h]

theorem holds_foldl_addRow {rows : List (σ × List (Char × List σ))} :
    (rows.foldl (fun t row => t.addRow row.1 row.2) t).Holds p a q ↔
      t.Holds p a q ∨ ∃ row, row ∈ rows ∧ row.1 = p ∧
        ∃ cell, cell ∈ row.2 ∧ cell.1 = a ∧ q ∈ cell.2 := by
  induction rows generalizing t with
  | nil => simp
  | cons row rows ih =>
    rw [List.foldl_cons, ih, holds_addRow]
    simp [or_assoc]

theorem holds_ofRows {rows : List (σ × List (Char × List σ))} :
    (ofRows rows).Holds p a q ↔ ∃ row, row ∈ rows ∧ row.1 = p ∧
      ∃ cell, cell ∈ row.2 ∧ cell.1 = a ∧ q ∈ cell.2 := by
  rw [ofRows, holds_foldl_addRow]
  exact or_iff_right not_holds_empty

theorem holds_ofTriples {ts : List (σ × Char × σ)} :
    (ofTriples ts).Holds p a q ↔ (p, a, q) ∈ ts := by
  simp only [ofTriples, holds_ofRows, List.mem_map]
  constructor
  · rintro ⟨_, ⟨⟨p, a, q⟩, ht, rfl⟩, rfl, cell, hc, rfl, hq⟩
    simp_all
  · exact fun ht => ⟨_, ⟨_, ht, rfl⟩, rfl, _, List.mem_singleton_self _, rfl, by simp⟩

theorem successors?_pruned :
    t.pruned.successors? p a = (t.successors? p a).filter fun targets => !targets.isEmpty := by
  have hr (r : FinMap Char (FinSet σ)) :
      ((if r.isEmpty then none else some r).bind fun row => row.get? a) = r.get? a := by
    split <;> simp_all
  simp only [successors?, pruned, FinMap.get?_filterMap]
  cases t.get? p with
  | none => rfl
  | some row =>
    simp only [Option.bind_some, hr, FinMap.get?_filterMap]
    cases row.get? a with
    | none => rfl
    | some targets => cases h : targets.isEmpty <;> simp [Option.filter, h]

theorem holds_pruned : t.pruned.Holds p a q ↔ t.Holds p a q := by
  simp only [Holds, successors?_pruned, Option.filter_eq_some_iff, Bool.not_eq_eq_eq_not,
    Bool.not_true, FinSet.isEmpty_eq_false_iff]
  refine exists_congr fun targets => and_congr_left fun hq => and_iff_left ?_
  rintro rfl
  exact FinSet.not_mem_empty hq

theorem exists_row_of_pruned (h : t.pruned.get? p = some row) :
    row ≠ .empty ∧ ∃ row, t.get? p = some row := by
  simp only [pruned, FinMap.get?_filterMap, Option.bind_eq_some_iff] at h
  obtain ⟨stored, hs, h⟩ := h
  split at h
  · cases h
  · rename_i hne
    cases h
    exact ⟨fun he => hne (FinMap.isEmpty_iff.mpr he), stored, hs⟩

theorem targets_of_pruned (h : t.pruned.successors? p a = some targets) :
    targets ≠ .empty ∧ t.successors? p a = some targets := by
  rw [successors?_pruned, Option.filter_eq_some_iff] at h
  exact ⟨fun he => by simp [he] at h, h.1⟩

theorem isPruned_pruned (t : Transitions σ) : t.pruned.IsPruned where
  row_ne_empty _ _ h := (exists_row_of_pruned h).1
  targets_ne_empty _ _ _ h := (targets_of_pruned h).1

theorem IsPruned.pruned_eq (ht : t.IsPruned) : t.pruned = t := by
  refine FinMap.ext fun p => ?_
  rw [pruned, FinMap.get?_filterMap]
  cases hp : t.get? p with
  | none => rfl
  | some row =>
    have hrow :
        (row.filterMap fun _ targets => if targets.isEmpty then none else some targets) = row := by
      refine FinMap.ext fun a => ?_
      rw [FinMap.get?_filterMap]
      cases ha : row.get? a with
      | none => rfl
      | some targets =>
        simp [ht.targets_ne_empty p a targets (successors?_eq_some_iff.mpr ⟨row, hp, ha⟩)]
    simp [hrow, ht.row_ne_empty p row hp]

theorem IsPruned.exists_holds (ht : t.IsPruned) (h : t.successors? p a = some targets) :
    ∃ q, t.Holds p a q := by
  refine Classical.not_forall_not.mp fun hn => ht.targets_ne_empty p a targets h ?_
  exact FinSet.eq_empty_iff.mpr fun q hq => hn q ⟨targets, h, hq⟩

theorem IsPruned.successors?_le (ht : t.IsPruned) (h : ∀ p a q, t.Holds p a q ↔ u.Holds p a q)
    (hs : t.successors? p a = some targets) : u.successors? p a = some targets := by
  obtain ⟨q, hq⟩ := ht.exists_holds hs
  obtain ⟨targets', hs', _⟩ := (h p a q).mp hq
  suffices targets = targets' by rw [hs', this]
  refine FinSet.ext fun r => ?_
  have hr := h p a r
  simpa [Holds, hs, hs'] using hr

theorem IsPruned.successors?_congr (ht : t.IsPruned) (hu : u.IsPruned)
    (h : ∀ p a q, t.Holds p a q ↔ u.Holds p a q) : t.successors? p a = u.successors? p a :=
  Option.ext fun _ => ⟨ht.successors?_le h, hu.successors?_le fun p a q => (h p a q).symm⟩

theorem IsPruned.get?_le (ht : t.IsPruned)
    (h : ∀ p a, t.successors? p a = u.successors? p a) (hr : t.get? p = some row) :
    u.get? p = some row := by
  have hg (a : Char) : row.get? a = u.successors? p a := by
    rw [← h, successors?, hr, Option.bind_some]
  cases hu : u.get? p with
  | none =>
    refine absurd (FinMap.ext fun a => ?_) (ht.row_ne_empty p row hr)
    rw [hg, successors?, hu]
    rfl
  | some row' =>
    refine congrArg some (FinMap.ext fun a => ?_)
    rw [hg, successors?, hu, Option.bind_some]

theorem IsPruned.ext (ht : t.IsPruned) (hu : u.IsPruned)
    (h : ∀ p a q, t.Holds p a q ↔ u.Holds p a q) : t = u := by
  have hs (p : σ) (a : Char) := ht.successors?_congr hu (p := p) (a := a) h
  exact FinMap.ext fun p => Option.ext fun _ =>
    ⟨ht.get?_le hs, hu.get?_le fun p a => (hs p a).symm⟩

end Transitions

end RegLang
