/-!
This module contains the class of totally ordered types. Finite sets and finite maps over such a
type have one canonical form: their members, or their keys, in increasing order. A search through
them therefore finds what is least.
-/

namespace RegLang

class Ordered (α : Type) extends Ord α where
  transOrd : Std.TransOrd α := by infer_instance
  lawfulEqOrd : Std.LawfulEqOrd α := by infer_instance

attribute [instance] Ordered.transOrd Ordered.lawfulEqOrd

instance : Ordered Char where
instance : Ordered String where
instance : Ordered Int where

namespace Ordered

variable {α : Type} [Ordered α]

def Lt (a b : α) : Prop := compare a b = .lt

instance (a b : α) : Decidable (Lt a b) := inferInstanceAs (Decidable (_ = _))

theorem compare_self (a : α) : compare a a = .eq := Std.ReflCmp.compare_self

theorem eq_of_compare {a b : α} (h : compare a b = .eq) : a = b := Std.LawfulEqCmp.eq_of_compare h

theorem compare_eq_iff {a b : α} : compare a b = .eq ↔ a = b :=
  ⟨eq_of_compare, fun h => h ▸ compare_self a⟩

theorem lt_of_compare_gt {a b : α} (h : compare a b = .gt) : Lt b a :=
  Std.OrientedCmp.gt_iff_lt.mp h

theorem lt_irrefl (a : α) : ¬ Lt a a := by simp [Lt]

theorem lt_trans {a b c : α} : Lt a b → Lt b c → Lt a c := Std.TransCmp.lt_trans

theorem lt_asymm {a b : α} (h : Lt a b) : ¬ Lt b a := fun h' => lt_irrefl a (lt_trans h h')

theorem ne_of_lt {a b : α} (h : Lt a b) : a ≠ b := fun e => lt_irrefl a (by rwa [← e] at h)

theorem lt_or_eq_or_lt (a b : α) : Lt a b ∨ a = b ∨ Lt b a := by
  cases h : compare a b with
  | lt => exact .inl h
  | eq => exact .inr (.inl (eq_of_compare h))
  | gt => exact .inr (.inr (lt_of_compare_gt h))

def IsLeast (P : α → Prop) (a : α) : Prop := P a ∧ ∀ b, P b → ¬ Lt b a

theorem IsLeast.unique {P : α → Prop} {a b : α} (ha : IsLeast P a) (hb : IsLeast P b) : a = b := by
  rcases lt_or_eq_or_lt a b with h | h | h
  · exact absurd h (hb.2 a ha.1)
  · exact h
  · exact absurd h (ha.2 b hb.1)

theorem findSome?_eq_some_iff_of_pairwise {ε β : Type} {R : ε → ε → Prop} {es : List ε}
    {f : ε → Option β} {b : β} (hR : ∀ e e', R e e' → ¬ R e' e) (hes : es.Pairwise R) :
    es.findSome? f = some b ↔
      ∃ e, e ∈ es ∧ f e = some b ∧ ∀ e', e' ∈ es → R e' e → f e' = none := by
  rw [List.findSome?_eq_some_iff]
  constructor
  · rintro ⟨before, e, after, h, he, hbefore⟩
    subst h
    have ⟨_, hafter, _⟩ := List.pairwise_append.mp hes
    refine ⟨e, List.mem_append_right before List.mem_cons_self, he, ?_⟩
    intro e' he' hlt
    rcases List.mem_append.mp he' with he' | he'
    · exact hbefore e' he'
    · rcases List.mem_cons.mp he' with h | he'
      · subst h
        exact absurd hlt (hR e' e' hlt)
      · exact absurd hlt (hR e e' ((List.pairwise_cons.mp hafter).1 e' he'))
  · rintro ⟨e, hmem, he, hleast⟩
    rcases List.append_of_mem hmem with ⟨before, after, h⟩
    subst h
    have ⟨_, _, hbefore⟩ := List.pairwise_append.mp hes
    refine ⟨before, e, after, rfl, he, ?_⟩
    intro e' he'
    exact hleast e' (List.mem_append_left _ he') (hbefore e' he' e List.mem_cons_self)

end Ordered

end RegLang
