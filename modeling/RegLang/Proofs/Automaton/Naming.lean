import Mathlib.Data.List.Nodup
import RegLang.Automaton.Naming
import RegLang.Automaton.Validity
import RegLang.Proofs.FinMap.OfList
import RegLang.Proofs.Text.Letter

/-!
This module contains the laws of the naming of states: every state gets a name, no two states get
the same one, and all names are free letters.
-/

namespace RegLang

namespace Automaton

variable {σ : Type} [Ordered σ] {A : Automaton σ} {names : FinMap σ Char} {p q : σ} {c : Char}

theorem mem_freeLetters :
    c ∈ A.freeLetters ↔ c ∈ Text.nameLetters ∧ ¬ c ∈ A.alphabet ∧ c ≠ epsilon := by
  simp [freeLetters]

theorem nodup_freeLetters : A.freeLetters.Nodup := Text.nodup_nameLetters.filter _

theorem perm_nameSupply : A.nameSupply.Perm A.freeLetters := by
  unfold nameSupply
  split
  · rename_i hS
    have hnodup : ('S' :: A.freeLetters.filter (· != 'S')).Nodup := by
      rw [List.nodup_cons]
      exact ⟨by simp, nodup_freeLetters.filter _⟩
    rw [List.perm_ext_iff_of_nodup hnodup nodup_freeLetters]
    intro c
    by_cases hc : c = 'S' <;> simp [hc, hS]
  · exact .refl _

theorem compare_bne_eq_iff : (compare p q != .eq) = true ↔ p ≠ q := by
  rw [bne_iff_ne, ne_eq, Ordered.compare_eq_iff]

theorem nodup_namingOrder : A.namingOrder.Nodup := by
  unfold namingOrder
  rw [List.nodup_cons, List.mem_filter, compare_bne_eq_iff]
  exact ⟨fun h => h.2 rfl, (FinSet.nodup_toList _).filter _⟩

theorem perm_namingOrder (hA : A.IsValid) : A.namingOrder.Perm A.states.toList := by
  rw [List.perm_ext_iff_of_nodup nodup_namingOrder (FinSet.nodup_toList _)]
  intro q
  unfold namingOrder
  rw [List.mem_cons, List.mem_filter, compare_bne_eq_iff]
  by_cases hq : q = A.initial <;> simp [hq, hA.initial_mem]

structure IsNaming (A : Automaton σ) (names : FinMap σ Char) : Prop where
  exists_name : ∀ q, q ∈ A.states → ∃ c, names.get? q = some c
  mem_states : ∀ q c, names.get? q = some c → q ∈ A.states
  injective : ∀ p q c, names.get? p = some c → names.get? q = some c → p = q
  free : ∀ q c, names.get? q = some c → c ∈ A.freeLetters

theorem stateNames?_eq_some_iff :
    A.stateNames? = some names ↔ A.namingOrder.length ≤ A.nameSupply.length ∧
      names = .ofList (A.namingOrder.zip A.nameSupply) := by
  unfold stateNames?
  rw [Option.ite_none_right_eq_some, Option.some.injEq, eq_comm (b := names)]

omit [Ordered σ] in
theorem eq_of_mem_zip {states : List σ} {letters : List Char} (hl : letters.Nodup)
    (hp : (p, c) ∈ states.zip letters) (hq : (q, c) ∈ states.zip letters) : p = q := by
  rcases List.mem_iff_getElem.mp hp with ⟨i, hi, ei⟩
  rcases List.mem_iff_getElem.mp hq with ⟨j, hj, ej⟩
  rw [List.getElem_zip, Prod.mk.injEq] at ei ej
  have hij : i = j := hl.getElem_inj_iff.mp (ei.2.trans ej.2.symm)
  subst hij
  exact ei.1.symm.trans ej.1

theorem isNaming_of_stateNames? (hA : A.IsValid) (h : A.stateNames? = some names) :
    A.IsNaming names := by
  rcases stateNames?_eq_some_iff.mp h with ⟨hlen, hnames⟩
  have hkeys := List.map_fst_zip hlen
  have hget (q : σ) (c : Char) :
      names.get? q = some c ↔ (q, c) ∈ A.namingOrder.zip A.nameSupply := by
    rw [hnames]
    apply FinMap.get?_ofList_eq_some_iff
    rw [hkeys]
    exact nodup_namingOrder
  constructor
  case exists_name =>
    intro q hq
    rw [← FinSet.mem_toList, ← (perm_namingOrder hA).mem_iff, ← hkeys] at hq
    rcases List.mem_map.mp hq with ⟨⟨_, c⟩, hc, e⟩
    subst e
    exact ⟨c, (hget _ c).mpr hc⟩
  case mem_states =>
    intro q c hc
    exact (perm_namingOrder hA).mem_iff.mp (List.of_mem_zip ((hget q c).mp hc)).1
  case injective =>
    intro p q c hp hq
    have hl : A.nameSupply.Nodup := perm_nameSupply.nodup_iff.mpr nodup_freeLetters
    exact eq_of_mem_zip hl ((hget p c).mp hp) ((hget q c).mp hq)
  case free =>
    intro q c hc
    exact perm_nameSupply.mem_iff.mp (List.of_mem_zip ((hget q c).mp hc)).2

theorem exists_stateNames?_iff (hA : A.IsValid) :
    (∃ names, A.stateNames? = some names) ↔ A.states.size ≤ A.freeLetters.length := by
  simp only [stateNames?_eq_some_iff, exists_and_left, exists_eq, and_true]
  rw [(perm_namingOrder hA).length_eq, perm_nameSupply.length_eq]
  rfl

theorem length_free_capitals_le :
    (Text.capitals.filter fun c => !A.alphabet.contains c && c != epsilon).length ≤
      A.freeLetters.length := by
  unfold freeLetters Text.nameLetters
  rw [List.filter_append, List.length_append]
  exact Nat.le_add_right _ _

end Automaton

end RegLang
