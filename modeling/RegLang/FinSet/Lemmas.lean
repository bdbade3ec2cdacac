import RegLang.FinSet.Basic

/-!
This module contains the membership laws of the operations on finite sets, and that a set is
determined by its members.
-/

namespace RegLang

namespace FinSet

variable {α β γ : Type} [Ordered α] [Ordered β] {s t : FinSet α} {a b : α}

@[simp]
theorem mem_toList : a ∈ s.toList ↔ a ∈ s := Iff.rfl

theorem nodup_toList (s : FinSet α) : s.toList.Nodup :=
  s.increasing.imp Ordered.ne_of_lt

@[simp]
theorem not_mem_empty : ¬ a ∈ (empty : FinSet α) := List.not_mem_nil

@[simp]
theorem mem_insert : a ∈ s.insert b ↔ a = b ∨ a ∈ s := mem_place

@[simp]
theorem mem_singleton : a ∈ singleton b ↔ a = b := List.mem_singleton

@[simp]
theorem mem_ofList {as : List α} : a ∈ ofList as ↔ a ∈ as := by
  induction as with
  | nil => exact Iff.rfl
  | cons b bs ih =>
    rw [ofList, List.foldr_cons, mem_insert, List.mem_cons, ← ih]
    rfl

@[simp]
theorem mem_union : a ∈ s.union t ↔ a ∈ s ∨ a ∈ t := by
  rw [← mem_toList (s := s), union]
  induction s.toList with
  | nil => simp
  | cons b bs ih => rw [List.foldr_cons, mem_insert, ih, List.mem_cons, or_assoc]

@[simp]
theorem mem_filter {p : α → Bool} : a ∈ s.filter p ↔ a ∈ s ∧ p a = true := List.mem_filter

@[simp]
theorem mem_map {f : α → β} {b : β} : b ∈ s.map f ↔ ∃ a, a ∈ s ∧ f a = b := by
  rw [map, mem_ofList, List.mem_map]
  exact Iff.rfl

@[simp]
theorem mem_bind {f : α → FinSet β} {b : β} : b ∈ s.bind f ↔ ∃ a, a ∈ s ∧ b ∈ f a := by
  simp only [← mem_toList (s := s), bind]
  induction s.toList with
  | nil => simp
  | cons c cs ih => simp [ih]

theorem ext (h : ∀ a, a ∈ s ↔ a ∈ t) : s = t := by
  refine ext_toList (List.Perm.eq_of_pairwise ?_ s.increasing t.increasing ?_)
  · exact fun a b _ _ hab hba => absurd hba (Ordered.lt_asymm hab)
  · exact (List.perm_ext_iff_of_nodup s.nodup_toList t.nodup_toList).mpr h

theorem ext_iff : s = t ↔ ∀ a, a ∈ s ↔ a ∈ t := ⟨fun h _ => h ▸ Iff.rfl, ext⟩

theorem ofList_toList (s : FinSet α) : ofList s.toList = s := ext fun _ => mem_ofList

section Searching

variable {before after : List α}

theorem mem_append_cons_iff_of_lt (h : (before ++ b :: after).Pairwise Ordered.Lt)
    (hab : Ordered.Lt a b) : a ∈ before ++ b :: after ↔ a ∈ before := by
  have ⟨_, hafter, _⟩ := List.pairwise_append.mp h
  rw [List.mem_append, List.mem_cons]
  constructor
  · rintro (hmem | rfl | hmem)
    · exact hmem
    · exact absurd hab (Ordered.lt_irrefl a)
    · exact absurd ((List.pairwise_cons.mp hafter).1 a hmem) (Ordered.lt_asymm hab)
  · exact .inl

theorem mem_append_cons_iff_of_gt (h : (before ++ b :: after).Pairwise Ordered.Lt)
    (hba : Ordered.Lt b a) : a ∈ before ++ b :: after ↔ a ∈ after := by
  have ⟨_, _, hbefore⟩ := List.pairwise_append.mp h
  rw [List.mem_append, List.mem_cons]
  constructor
  · rintro (hmem | rfl | hmem)
    · exact absurd (hbefore a hmem b List.mem_cons_self) (Ordered.lt_asymm hba)
    · exact absurd hba (Ordered.lt_irrefl a)
    · exact hmem
  · exact fun hmem => .inr (.inr hmem)

theorem contains.go_iff {bs : List α} (h : bs.Pairwise Ordered.Lt) : go a bs = true ↔ a ∈ bs := by
  induction bs with
  | nil => simp [go]
  | cons b bs ih =>
    unfold go
    split
    · rename_i hab
      have hmem : a ∈ b :: bs ↔ a ∈ [] := @mem_append_cons_iff_of_lt α _ a b [] bs h hab
      rw [hmem]
      simp
    · rename_i hab
      simp [Ordered.eq_of_compare hab]
    · rename_i hab
      have hmem : a ∈ b :: bs ↔ a ∈ bs :=
        @mem_append_cons_iff_of_gt α _ a b [] bs h (Ordered.lt_of_compare_gt hab)
      rw [hmem]
      exact ih (List.pairwise_cons.mp h).2

@[simp]
theorem contains_iff : s.contains a = true ↔ a ∈ s := contains.go_iff s.increasing

@[simp]
theorem contains_eq_false_iff : s.contains a = false ↔ ¬ a ∈ s := by
  rw [← contains_iff, Bool.not_eq_true]

end Searching

@[simp]
theorem isEmpty_iff : s.isEmpty = true ↔ s = empty := by
  rw [isEmpty, List.isEmpty_iff]
  exact toList_inj (t := empty)

@[simp]
theorem isEmpty_eq_false_iff : s.isEmpty = false ↔ s ≠ empty := by
  rw [← Bool.not_eq_true, isEmpty_iff]

theorem eq_empty_iff : s = empty ↔ ∀ a, ¬ a ∈ s := by
  simp [ext_iff]

theorem ne_empty_iff : s ≠ empty ↔ ∃ a, a ∈ s := by
  rw [ne_eq, eq_empty_iff, Classical.not_forall_not]

@[simp]
theorem any_iff {p : α → Bool} : s.any p = true ↔ ∃ a, a ∈ s ∧ p a = true := List.any_eq_true

theorem map_eq_empty_iff {f : α → β} : s.map f = empty ↔ s = empty := by
  simp only [eq_empty_iff, mem_map]
  constructor
  · intro h a ha
    exact h (f a) ⟨a, ha, rfl⟩
  · rintro h _ ⟨a, ha, _⟩
    exact h a ha

theorem map_singleton {f : α → β} : (singleton a).map f = singleton (f a) := rfl

theorem eq_of_map_eq {u : FinSet α} {f : α → β}
    (hf : ∀ a b, a ∈ u → b ∈ u → f a = f b → a = b) (hs : ∀ a, a ∈ s → a ∈ u)
    (ht : ∀ a, a ∈ t → a ∈ u) (h : s.map f = t.map f) : s = t := by
  have hmem {v w : FinSet α} (hv : ∀ a, a ∈ v → a ∈ u) (hw : ∀ a, a ∈ w → a ∈ u)
      (h : v.map f = w.map f) (a : α) (ha : a ∈ v) : a ∈ w := by
    have hfa : f a ∈ w.map f := h ▸ mem_map.mpr ⟨a, ha, rfl⟩
    rcases mem_map.mp hfa with ⟨b, hb, e⟩
    rw [← hf b a (hw b hb) (hv a ha) e]
    exact hb
  exact ext fun a => ⟨hmem hs ht h a, hmem ht hs h.symm a⟩

@[simp]
theorem find?_eq_none_iff {p : α → Bool} : s.find? p = none ↔ ∀ a, a ∈ s → ¬ p a = true :=
  List.find?_eq_none

theorem findSome?_toList_eq_some_iff {f : α → Option γ} {c : γ} :
    s.toList.findSome? f = some c ↔
      ∃ a, Ordered.IsLeast (fun b => b ∈ s ∧ f b ≠ none) a ∧ f a = some c := by
  rw [Ordered.findSome?_eq_some_iff_of_pairwise (fun _ _ => Ordered.lt_asymm) s.increasing]
  constructor
  · rintro ⟨a, ha, hf, hleast⟩
    refine ⟨a, ⟨⟨ha, ?_⟩, ?_⟩, hf⟩
    · rw [hf]
      nofun
    · rintro b ⟨hb, hne⟩ hlt
      exact hne (hleast b hb hlt)
  · rintro ⟨a, ⟨⟨ha, _⟩, hleast⟩, hf⟩
    refine ⟨a, ha, hf, ?_⟩
    intro b hb hlt
    cases hb' : f b with
    | none => rfl
    | some d => exact absurd hlt (hleast b ⟨hb, hb' ▸ nofun⟩)

theorem find?_eq_some_iff {p : α → Bool} :
    s.find? p = some a ↔ Ordered.IsLeast (fun b => b ∈ s ∧ p b = true) a := by
  rw [find?, List.find?_eq_findSome?_guard, findSome?_toList_eq_some_iff]
  constructor
  · rintro ⟨b, hb, hf⟩
    rcases Option.guard_eq_some_iff.mp hf with ⟨rfl, _⟩
    simpa [Option.guard] using hb
  · intro ha
    exact ⟨a, by simpa [Option.guard] using ha, Option.guard_eq_some_iff.mpr ⟨rfl, ha.1.2⟩⟩

end FinSet

end RegLang
