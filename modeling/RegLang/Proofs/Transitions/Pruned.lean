import RegLang.Transitions.Lemmas

/-!
This module contains which transition relations are pruned: in those that are made of triples every
row and every set of successors that is stored holds something.
-/

namespace RegLang

namespace Transitions

variable {σ : Type} [Ordered σ] {t : Transitions σ} {ts : List (σ × Char × σ)} {p q r : σ}
  {a b : Char} {row : FinMap Char (FinSet σ)}

theorem IsPruned.exists_holds_of_get? (ht : t.IsPruned) (hr : t.get? p = some row) :
    ∃ a q, t.Holds p a q := by
  cases he : row.entries with
  | nil => exact absurd (FinMap.ext_entries he) (ht.row_ne_empty p row hr)
  | cons cell cells =>
    have hcell : row.get? cell.1 = some cell.2 := by
      rw [← FinMap.mem_entries, he]
      exact List.mem_cons_self
    rcases ht.exists_holds (successors?_eq_some_iff.mpr ⟨row, hr, hcell⟩) with ⟨q, hq⟩
    exact ⟨cell.1, q, hq⟩

theorem IsPruned.successors?_eq_some_iff_holds (ht : t.IsPruned) {targets : FinSet σ} :
    t.successors? p a = some targets ↔
      targets ≠ .empty ∧ ∀ q, q ∈ targets ↔ t.Holds p a q := by
  constructor
  · intro hs
    refine ⟨ht.targets_ne_empty p a targets hs, ?_⟩
    intro q
    unfold Holds
    rw [hs]
    simp
  · rintro ⟨hne, hq⟩
    rcases FinSet.ne_empty_iff.mp hne with ⟨q, hmem⟩
    rcases (hq q).mp hmem with ⟨stored, hs, _⟩
    rw [hs, Option.some.injEq]
    apply FinSet.ext
    intro r
    rw [hq]
    unfold Holds
    rw [hs]
    simp

theorem get?_addRow_of_ne {cells : List (Char × List σ)} (h : r ≠ p) :
    (t.addRow p cells).get? r = t.get? r := FinMap.get?_update_of_ne h

theorem successors?_addRow_self :
    (t.addRow p [(a, [q])]).successors? p a =
      some ((FinSet.ofList [q]).union ((t.successors? p a).getD .empty)) := by
  unfold successors? addRow
  rw [FinMap.get?_update_self, Option.bind_some, List.foldl_cons, List.foldl_nil,
    FinMap.get?_update_self]
  cases t.get? p <;> rfl

theorem successors?_addRow_of_ne (h : ¬ (r = p ∧ b = a)) :
    (t.addRow p [(a, [q])]).successors? r b = t.successors? r b := by
  unfold successors?
  by_cases hr : r = p
  · subst hr
    unfold addRow
    rw [FinMap.get?_update_self, Option.bind_some, List.foldl_cons, List.foldl_nil,
      FinMap.get?_update_of_ne fun hb => h ⟨rfl, hb⟩]
    cases t.get? r <;> rfl
  · rw [get?_addRow_of_ne hr]

theorem IsPruned.addRow (ht : t.IsPruned) : (t.addRow p [(a, [q])]).IsPruned := by
  constructor
  case row_ne_empty =>
    intro r row h e
    by_cases hr : r = p
    · -- The row of `p` has a set of successors on `a`.
      subst hr
      have hs := successors?_addRow_self (t := t) (p := r) (a := a) (q := q)
      unfold successors? at hs
      rw [h, e] at hs
      cases hs
    · rw [get?_addRow_of_ne hr] at h
      exact ht.row_ne_empty r row h e
  case targets_ne_empty =>
    intro r b targets h e
    by_cases hr : r = p ∧ b = a
    · rw [hr.1, hr.2, successors?_addRow_self, Option.some.injEq, e, FinSet.eq_empty_iff] at h
      exact h q (by simp)
    · rw [successors?_addRow_of_ne hr] at h
      exact ht.targets_ne_empty r b targets h e

theorem isPruned_ofTriples : (ofTriples ts).IsPruned := by
  unfold ofTriples ofRows
  rw [List.foldl_map]
  have h (t : Transitions σ) (ht : t.IsPruned) :
      (ts.foldl (fun t s => t.addRow s.1 [(s.2.1, [s.2.2])]) t).IsPruned := by
    induction ts generalizing t with
    | nil => exact ht
    | cons s ts ih => exact ih _ ht.addRow
  exact h .empty ⟨nofun, nofun⟩

end Transitions

end RegLang
