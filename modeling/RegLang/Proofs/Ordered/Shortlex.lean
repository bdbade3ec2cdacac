import Mathlib.Data.List.Shortlex
import RegLang.Ordered

/-!
This module contains the order of words by their lengths, and of words of one length by their first
different symbols: that it is a strict order, and how it goes on from words to longer ones.
-/

namespace RegLang

namespace Ordered

variable {α : Type} [Ordered α] {a : α} {u v w : List α}

instance : Std.Asymm (Lt (α := α)) := ⟨fun _ _ => lt_asymm⟩

theorem shortlex_trans (huv : List.Shortlex Lt u v) (hvw : List.Shortlex Lt v w) :
    List.Shortlex Lt u w := by
  rw [List.shortlex_def] at huv hvw ⊢
  cases huv with
  | inl huv =>
    left
    cases hvw with
    | inl hvw => omega
    | inr hvw => omega
  | inr huv =>
    cases hvw with
    | inl hvw =>
      left
      omega
    | inr hvw =>
      right
      exact ⟨huv.1.trans hvw.1, List.lex_trans lt_trans huv.2 hvw.2⟩

theorem lex_append (h : List.Lex Lt u v) (hl : u.length = v.length) (x y : List α) :
    List.Lex Lt (u ++ x) (v ++ y) := by
  induction h with
  | nil => simp at hl
  | cons _ ih =>
    rw [List.length_cons, List.length_cons, Nat.add_right_cancel_iff] at hl
    exact .cons (ih hl)
  | rel h => exact .rel h

theorem shortlex_append_singleton (h : List.Shortlex Lt u v) (a b : α) :
    List.Shortlex Lt (u ++ [a]) (v ++ [b]) := by
  rw [List.shortlex_def] at h ⊢
  simp only [List.length_append, List.length_singleton]
  cases h with
  | inl h =>
    left
    omega
  | inr h =>
    right
    exact ⟨by omega, lex_append h.2 h.1 [a] [b]⟩

theorem shortlex_self_append_singleton : List.Shortlex Lt u (u ++ [a]) := by
  apply List.Shortlex.of_length_lt
  rw [List.length_append, List.length_singleton]
  omega

end Ordered

end RegLang
