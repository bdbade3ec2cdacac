import RegLang.Text.Listed

/-!
This module contains which lists of names their written form tells apart: lists of names that do
not hold the separator themselves.
-/

namespace RegLang

namespace Text

variable {name : String} {names others : List String} {m n r s : List Char}

def IsListable (name : String) : Prop := ¬ [',', ' '] <:+: name.toList

instance : DecidablePred IsListable := fun _ => inferInstanceAs (Decidable (¬ _))

theorem not_append_cons_eq (hn : ¬ [',', ' '] <:+: m ++ n) (hne : n ≠ []) :
    n ++ ',' :: ' ' :: r ≠ ',' :: ' ' :: s := by
  intro h
  cases n with
  | nil => exact hne rfl
  | cons c n =>
    injection h with hc h
    subst hc
    cases n with
    | nil =>
      -- The name ends with a comma, which the separator's own comma follows.
      injection h with hc
      exact absurd hc (by decide)
    | cons d n =>
      injection h with hd h
      subst hd
      exact hn ⟨m, n, by simp⟩

theorem append_separator_inj (hm : ¬ [',', ' '] <:+: m) (hn : ¬ [',', ' '] <:+: n)
    (h : m ++ ',' :: ' ' :: r = n ++ ',' :: ' ' :: s) : m = n ∧ r = s := by
  rcases List.append_eq_append_iff.mp h with ⟨t, hnt, ht⟩ | ⟨t, hmt, ht⟩
  · subst hnt
    by_cases hte : t = []
    · subst hte
      simp_all
    · exact absurd ht.symm (not_append_cons_eq hn hte)
  · subst hmt
    by_cases hte : t = []
    · subst hte
      simp_all
    · exact absurd ht.symm (not_append_cons_eq hm hte)

theorem toList_intercalate_cons_cons {other : String} :
    (", ".intercalate (name :: other :: names)).toList =
      name.toList ++ ',' :: ' ' :: (", ".intercalate (other :: names)).toList := by
  rw [String.intercalate_cons_cons, String.toList_append, String.toList_append, List.append_assoc]
  rfl

theorem not_isListable_intercalate {other : String} :
    ¬ IsListable (", ".intercalate (name :: other :: names)) := by
  unfold IsListable
  rw [toList_intercalate_cons_cons]
  intro h
  exact h ⟨name.toList, _, List.append_assoc _ _ _⟩

theorem intercalate_inj (hn : ∀ name, name ∈ names → IsListable name)
    (ho : ∀ name, name ∈ others → IsListable name) (hne : names ≠ []) (hoe : others ≠ [])
    (h : ", ".intercalate names = ", ".intercalate others) : names = others := by
  induction names generalizing others with
  | nil => exact absurd rfl hne
  | cons name names ih =>
    rcases others with _ | ⟨other, others⟩
    · exact absurd rfl hoe
    have hname := hn name List.mem_cons_self
    have hother := ho other List.mem_cons_self
    cases names with
    | nil =>
      rw [String.intercalate_singleton] at h
      cases others with
      | nil => rw [h, String.intercalate_singleton]
      | cons =>
        rw [h] at hname
        exact absurd hname not_isListable_intercalate
    | cons name' names =>
      cases others with
      | nil =>
        rw [String.intercalate_singleton] at h
        rw [← h] at hother
        exact absurd hother not_isListable_intercalate
      | cons other' others =>
        rw [← String.toList_inj, toList_intercalate_cons_cons, toList_intercalate_cons_cons] at h
        rcases append_separator_inj hname hother h with ⟨he, hrest⟩
        rw [String.toList_inj.mp he]
        congr 1
        apply ih _ _ (List.cons_ne_nil _ _) (List.cons_ne_nil _ _) (String.toList_inj.mp hrest)
        · intro name h
          exact hn name (List.mem_cons_of_mem _ h)
        · intro name h
          exact ho name (List.mem_cons_of_mem _ h)

theorem braced_eq_iff :
    braced names = braced others ↔ ", ".intercalate names = ", ".intercalate others := by
  unfold braced
  simp [← String.toList_inj]

theorem braced_inj (hn : ∀ name, name ∈ names → IsListable name)
    (ho : ∀ name, name ∈ others → IsListable name) (hne : names ≠ []) (hoe : others ≠ []) :
    braced names = braced others ↔ names = others := by
  rw [braced_eq_iff]
  constructor
  · exact intercalate_inj hn ho hne hoe
  · intro h
    rw [h]

-- Without the condition on the names two lists can look alike.
example : braced ["r, s"] = braced ["r", "s"] := by decide

theorem braced_eq_braced_nil_iff : braced names = braced [] ↔ names = [] ∨ names = [""] := by
  rw [braced_eq_iff, String.intercalate_nil]
  rcases names with _ | ⟨name, _ | ⟨other, names⟩⟩
  · simp
  · simp
  · rw [← String.toList_inj, toList_intercalate_cons_cons]
    simp

theorem braced_inj_of_ne_empty (hn : ∀ name, name ∈ names → IsListable name ∧ name ≠ "")
    (ho : ∀ name, name ∈ others → IsListable name ∧ name ≠ "") :
    braced names = braced others ↔ names = others := by
  have hnil {names : List String} (hn : ∀ name, name ∈ names → IsListable name ∧ name ≠ "")
      (h : braced names = braced []) : names = [] := by
    apply (braced_eq_braced_nil_iff.mp h).resolve_right
    intro e
    rw [e] at hn
    exact (hn "" (List.mem_singleton_self _)).2 rfl
  constructor
  · intro h
    by_cases hne : names = []
    · rw [hne] at h ⊢
      exact (hnil ho h.symm).symm
    · by_cases hoe : others = []
      · rw [hoe] at h ⊢
        exact hnil hn h
      · apply (braced_inj _ _ hne hoe).mp h
        · intro name hname
          exact (hn name hname).1
        · intro name hname
          exact (ho name hname).1
  · intro h
    rw [h]

end Text

end RegLang
