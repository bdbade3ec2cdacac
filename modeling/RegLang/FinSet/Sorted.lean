import RegLang.FinSet.Lemmas

/-!
This module contains the two operations that rest on the order of the members: a set is made of the
elements of any list by sorting them, and the search for a member halves what is left to search with
every comparison.
-/

namespace RegLang

namespace FinSet

variable {α : Type} [Ordered α] {a b : α} {as after : List α}

section Making

def sort (as : List α) : List α := as.mergeSort fun a b => (compare a b).isLE

def dropRepeats : List α → List α
  | a :: b :: bs => if compare a b = .eq then dropRepeats (b :: bs) else a :: dropRepeats (b :: bs)
  | as => as

theorem pairwise_sort (as : List α) : (sort as).Pairwise fun a b => (compare a b).isLE = true := by
  apply List.pairwise_mergeSort
  · intro a b c
    exact Std.TransCmp.isLE_trans
  · intro a b
    rw [Bool.or_eq_true, ← Std.OrientedCmp.isGE_iff_isLE (a := a)]
    cases compare a b <;> simp

theorem mem_dropRepeats : a ∈ dropRepeats as ↔ a ∈ as := by
  fun_induction dropRepeats as with
  | case1 b c cs h ih =>
    rw [ih, Ordered.eq_of_compare h]
    simp
  | case2 b c cs h ih => rw [List.mem_cons, ih, List.mem_cons (b := b)]
  | case3 => rfl

theorem pairwise_dropRepeats (h : as.Pairwise fun a b => (compare a b).isLE = true) :
    (dropRepeats as).Pairwise Ordered.Lt := by
  fun_induction dropRepeats as with
  | case1 a b bs hab ih => exact ih (List.pairwise_cons.mp h).2
  | case2 a b bs hab ih =>
    have ⟨ha, hbs⟩ := List.pairwise_cons.mp h
    have hlt : Ordered.Lt a b := by
      rcases Ordering.isLE_iff_eq_lt_or_eq_eq.mp (ha b List.mem_cons_self) with hlt | heq
      · exact hlt
      · exact absurd heq hab
    refine List.pairwise_cons.mpr ⟨?_, ih hbs⟩
    intro c hc
    rcases List.mem_cons.mp (mem_dropRepeats.mp hc) with rfl | hc
    · exact hlt
    · exact Std.TransCmp.lt_of_lt_of_isLE hlt ((List.pairwise_cons.mp hbs).1 c hc)
  | case3 as hne =>
    match as with
    | [] => exact .nil
    | [a] => exact List.pairwise_singleton _ a
    | a :: b :: bs => exact absurd rfl (hne a b bs)

def ofUnordered (as : List α) : FinSet α :=
  ⟨dropRepeats (sort as), pairwise_dropRepeats (pairwise_sort as)⟩

@[simp]
theorem mem_ofUnordered : a ∈ ofUnordered as ↔ a ∈ as := by
  have h : a ∈ ofUnordered as ↔ a ∈ dropRepeats (sort as) := Iff.rfl
  rw [h, mem_dropRepeats, sort, List.mem_mergeSort]

end Making

section Searching

omit [Ordered α] in
theorem length_of_drop_eq_cons (h : as.drop (as.length / 2) = b :: after) :
    as.length / 2 < as.length ∧ after.length < as.length := by
  have := congrArg List.length h
  rw [List.length_drop, List.length_cons] at this
  omega

def search (s : FinSet α) (a : α) : Bool :=
  go s.toList
where
  go (as : List α) : Bool :=
    match h : as.drop (as.length / 2) with
    | [] => false
    | b :: after =>
      have := length_of_drop_eq_cons h
      match compare a b with
      | .lt => go (as.take (as.length / 2))
      | .eq => true
      | .gt => go after
  termination_by as.length
  decreasing_by
    · rw [List.length_take]
      omega
    · exact this.2

theorem search.go_iff (h : as.Pairwise Ordered.Lt) : go a as = true ↔ a ∈ as := by
  fun_induction go a as with
  | case1 as hdrop =>
    have has : as = [] := by
      rw [List.drop_eq_nil_iff] at hdrop
      apply List.eq_nil_of_length_eq_zero
      omega
    simp [has]
  | case2 as b after hdrop _ hab ih =>
    -- The list is what stands before the middle, then the middle, then what stands after it.
    have has := hdrop ▸ List.take_append_drop (as.length / 2) as
    rw [ih (h.sublist (List.take_sublist _ as)), ← mem_append_cons_iff_of_lt (has.symm ▸ h) hab, has]
  | case3 as b after hdrop _ hab =>
    have hmem : b ∈ as.drop (as.length / 2) := hdrop ▸ List.mem_cons_self
    simp [Ordered.eq_of_compare hab, List.mem_of_mem_drop hmem]
  | case4 as b after hdrop _ hab ih =>
    have has := hdrop ▸ List.take_append_drop (as.length / 2) as
    have hafter : after.Pairwise Ordered.Lt :=
      (List.pairwise_cons.mp (hdrop ▸ h.sublist (List.drop_sublist _ as))).2
    rw [ih hafter, ← mem_append_cons_iff_of_gt (has.symm ▸ h) (Ordered.lt_of_compare_gt hab), has]

@[simp]
theorem search_iff {s : FinSet α} : s.search a = true ↔ a ∈ s := search.go_iff s.increasing

end Searching

end FinSet

end RegLang
