import RegLang.FinSet.Lemmas
import RegLang.FinSet.Sorted

/-!
This module contains that sorting gives every set one form: lists with the same elements give the
same set, no matter how often and in which order the elements come, and it is the set that is made
by putting the elements in their places one by one. Halving finds exactly its members.
-/

namespace RegLang

namespace FinSet

variable {α : Type} [Ordered α] {s : FinSet α} {a : α} {as bs : List α}

theorem ofUnordered_eq_iff : ofUnordered as = ofUnordered bs ↔ ∀ a, a ∈ as ↔ a ∈ bs := by
  rw [ext_iff]
  simp only [mem_ofUnordered]

theorem ofUnordered_eq_ofList : ofUnordered as = ofList as := by
  apply ext
  intro a
  rw [mem_ofUnordered, mem_ofList]

theorem ofUnordered_eq_of_perm_toList (h : as.Perm s.toList) : ofUnordered as = s := by
  apply ext
  intro a
  rw [mem_ofUnordered, h.mem_iff, mem_toList]

theorem search_eq_contains : s.search a = s.contains a := by
  rw [Bool.eq_iff_iff, search_iff, contains_iff]

/--
Two lists give the same set if and only if they have the same elements. The members of the set are
strictly increasing, halving finds exactly the elements of the list, and the members in any order
give the set again. Making the set and searching it agree with what the other operations use.
-/
theorem ofUnordered_eq_iff_and_search_iff (as bs : List α) :
    (ofUnordered as = ofUnordered bs ↔ ∀ a, a ∈ as ↔ a ∈ bs) ∧
    (ofUnordered as).toList.Pairwise Ordered.Lt ∧
    (∀ a, (ofUnordered as).search a = true ↔ a ∈ as) ∧
    (∀ cs, cs.Perm (ofUnordered as).toList → ofUnordered cs = ofUnordered as) ∧
    ofUnordered as = ofList as ∧
    ∀ a, (ofUnordered as).search a = (ofList as).contains a := by
  refine ⟨ofUnordered_eq_iff, (ofUnordered as).increasing, ?_, ?_, ofUnordered_eq_ofList, ?_⟩
  · intro a
    rw [search_iff, mem_ofUnordered]
  · intro cs
    exact ofUnordered_eq_of_perm_toList
  · intro a
    rw [search_eq_contains, ofUnordered_eq_ofList]

theorem ofUnordered_eq_iff_and_search_iff_repeated :
    (ofUnordered ["q3", "q2", "q3"]).toList = ["q2", "q3"] ∧
    ["q3", "q2"].Perm (ofUnordered ["q3", "q2", "q3"]).toList ∧
    ofUnordered ["q3", "q2"] = ofUnordered ["q3", "q2", "q3"] ∧
    (ofUnordered ["q3", "q2", "q3"]).search "q3" = true ∧
    ¬ (ofUnordered ["q3", "q2", "q3"]).search "q1" = true := by
  rcases ofUnordered_eq_iff_and_search_iff ["q3", "q2", "q3"] ["q2", "q3"] with
    ⟨_, _, hsearch, hperm, hlist, _⟩
  have hmembers : (ofUnordered ["q3", "q2", "q3"]).toList = ["q2", "q3"] := by
    rw [hlist]
    decide
  have hswap : ["q3", "q2"].Perm (ofUnordered ["q3", "q2", "q3"]).toList := by
    rw [hmembers]
    exact List.Perm.swap "q2" "q3" []
  refine ⟨hmembers, hswap, hperm _ hswap, ?_, ?_⟩
  · rw [hsearch]
    decide
  · rw [hsearch]
    decide

end FinSet

end RegLang
