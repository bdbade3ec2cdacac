import Mathlib.Algebra.Group.Nat.Defs
import Mathlib.Data.List.Sublists
import RegLang.FinSet.Lemmas

/-!
This module contains the sizes of finite sets: when members are the same, what a new member
adds, what is left of the size under a map, and how many sets there are whose members come from one
set.
-/

namespace RegLang

namespace FinSet

variable {α β : Type} [Ordered α] [Ordered β] {s t : FinSet α} {a b : α}

theorem eq_of_size_le_one (h : s.size ≤ 1) (ha : a ∈ s) (hb : b ∈ s) : a = b := by
  rw [← mem_toList] at ha hb
  unfold size at h
  cases hs : s.toList with
  | nil => simp [hs] at ha
  | cons c cs =>
    have hcs : cs = [] := by
      apply List.eq_nil_of_length_eq_zero
      rw [hs, List.length_cons] at h
      omega
    rw [hs, hcs, List.mem_singleton] at ha hb
    rw [ha, hb]

theorem one_lt_size_iff : 1 < s.size ↔ ∃ a b, a ∈ s ∧ b ∈ s ∧ a ≠ b := by
  constructor
  · intro h
    unfold size at h
    have hnodup := nodup_toList s
    -- Two of the members are the first ones of the list, and in the list no member comes twice.
    match hs : s.toList with
    | [] => simp [hs] at h
    | [_] => simp [hs] at h
    | a :: b :: as =>
      rw [hs, List.nodup_cons] at hnodup
      refine ⟨a, b, ?_, ?_, ?_⟩
      · simp [← mem_toList, hs]
      · simp [← mem_toList, hs]
      · intro hab
        exact hnodup.1 (hab ▸ List.mem_cons_self)
  · rintro ⟨a, b, ha, hb, hne⟩
    rw [← Nat.not_le]
    intro hle
    exact hne (eq_of_size_le_one hle ha hb)

theorem size_insert_of_not_mem (h : ¬ a ∈ s) : (s.insert a).size = s.size + 1 := by
  have hperm : (s.insert a).toList.Perm (a :: s.toList) := by
    apply (List.perm_ext_iff_of_nodup (nodup_toList _) ?_).mpr
    · intro b
      rw [mem_toList, mem_insert, List.mem_cons, mem_toList]
    · exact List.nodup_cons.mpr ⟨h, nodup_toList s⟩
  exact hperm.length_eq

theorem size_map {f : α → β} (hf : ∀ a b, a ∈ s → b ∈ s → f a = f b → a = b) :
    (s.map f).size = s.size := by
  have hnodup : (s.toList.map f).Nodup := by
    apply List.Nodup.map_on _ (nodup_toList s)
    intro a ha b hb
    exact hf a b ha hb
  have hperm : (s.map f).toList.Perm (s.toList.map f) := by
    apply (List.perm_ext_iff_of_nodup (nodup_toList _) hnodup).mpr
    intro b
    rw [mem_toList, mem_map, List.mem_map]
    simp only [mem_toList]
  unfold size
  rw [hperm.length_eq, List.length_map]

theorem toList_sublist (h : ∀ a, a ∈ s → a ∈ t) : s.toList.Sublist t.toList := by
  -- A smaller set is a filtered larger one, and filtering keeps the order.
  have hs : s = t.filter s.contains := by
    apply ext
    intro a
    rw [mem_filter, contains_iff]
    exact ⟨fun ha => ⟨h a ha, ha⟩, fun ha => ha.2⟩
  rw [hs]
  exact List.filter_sublist

theorem size_le_two_pow {sets : FinSet (FinSet α)} (h : ∀ s, s ∈ sets → ∀ a, a ∈ s → a ∈ t) :
    sets.size ≤ 2 ^ t.size := by
  have hnodup : (sets.toList.map toList).Nodup :=
    (nodup_toList sets).map fun _ _ e => toList_inj.mp e
  have hsub : sets.toList.map toList ⊆ t.toList.sublists := by
    intro l hl
    rcases List.mem_map.mp hl with ⟨s, hs, e⟩
    rw [← e, List.mem_sublists]
    exact toList_sublist (h s hs)
  have hle := (List.subperm_of_subset hnodup hsub).length_le
  rw [List.length_map, List.length_sublists] at hle
  exact hle

end FinSet

end RegLang
