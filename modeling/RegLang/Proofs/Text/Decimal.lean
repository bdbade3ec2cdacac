import Mathlib
import RegLang.FinSet.Lemmas
import RegLang.Proofs.Text.Listed

/-!
This module contains the texts of integers: they are not empty, they hold no separator of written
lists, and different integers have different ones. So a set of integers can be told from its text.
-/

namespace RegLang

namespace Text

variable {m n : Int} {k : Nat} {c : Char}

theorem isDigit_of_mem_repr (h : c ∈ k.repr.toList) : c.isDigit = true := by
  rw [Nat.repr_eq_ofList_toDigits, String.toList_ofList] at h
  exact Nat.isDigit_of_mem_toDigits (by omega) (by omega) h

theorem mem_toString_int (h : c ∈ (toString n).toList) : c = '-' ∨ c.isDigit = true := by
  rw [Int.toString_eq_repr, Int.repr_eq_if] at h
  split at h
  · right
    exact isDigit_of_mem_repr h
  · rw [String.toList_append, List.mem_append] at h
    cases h with
    | inl h =>
      left
      exact List.mem_singleton.mp h
    | inr h =>
      right
      exact isDigit_of_mem_repr h

theorem isListable_toString_int (n : Int) : IsListable (toString n) := by
  intro h
  have hcomma : ',' ∈ (toString n).toList := h.sublist.mem List.mem_cons_self
  cases mem_toString_int hcomma with
  | inl h => exact absurd h (by decide)
  | inr h => exact absurd h (by decide)

theorem toString_int_ne_empty (n : Int) : toString n ≠ "" := by
  rw [Int.toString_eq_repr, Int.repr_eq_if]
  split
  · exact Nat.repr_ne_empty
  · intro h
    rw [← String.toList_inj, String.toList_append] at h
    exact absurd h (List.cons_ne_nil _ _)

theorem toString_int_inj : toString m = toString n ↔ m = n := by
  rw [Int.toString_eq_repr, Int.toString_eq_repr, Int.repr_inj]

end Text

namespace FinSet

theorem toString_int_inj {s t : FinSet Int} : toString s = toString t ↔ s = t := by
  have hnames (s : FinSet Int) (name : String) (h : name ∈ s.names) :
      Text.IsListable name ∧ name ≠ "" := by
    unfold names at h
    rcases List.mem_map.mp h with ⟨n, _, e⟩
    rw [← e]
    exact ⟨Text.isListable_toString_int n, Text.toString_int_ne_empty n⟩
  have hinj : Function.Injective (toString : Int → String) := by
    intro m n h
    exact Text.toString_int_inj.mp h
  have hbraced : toString s = toString t ↔ s.names = t.names :=
    Text.braced_inj_of_ne_empty (hnames s) (hnames t)
  rw [hbraced, ← toList_inj]
  exact (List.map_injective_iff.mpr hinj).eq_iff

end FinSet

end RegLang
