import RegLang.FinMap.Lemmas

/-!
This module contains the maps of lists of entries: the map has no values but those that the list
names, it has all of them where no key comes twice, and a map is that of its own entries.
-/

namespace RegLang

namespace FinMap

variable {κ β : Type} [Ordered κ] {m : FinMap κ β} {k : κ} {b : β} {es : List (κ × β)}

theorem get?_foldl_insert_of_not_mem (h : ¬ k ∈ es.map Prod.fst) :
    (es.foldl (fun m e => m.insert e.1 e.2) m).get? k = m.get? k := by
  induction es generalizing m with
  | nil => rfl
  | cons e es ih =>
    rw [List.map_cons, List.mem_cons, not_or] at h
    rw [List.foldl_cons, ih h.2, get?_insert_of_ne h.1]

theorem get?_foldl_insert_of_mem (hes : (es.map Prod.fst).Nodup) (h : (k, b) ∈ es) :
    (es.foldl (fun m e => m.insert e.1 e.2) m).get? k = some b := by
  induction es generalizing m with
  | nil => cases h
  | cons e es ih =>
    rw [List.map_cons, List.nodup_cons] at hes
    rw [List.foldl_cons]
    cases h with
    | head => rw [get?_foldl_insert_of_not_mem hes.1, get?_insert_self]
    | tail _ h => exact ih hes.2 h

theorem mem_of_get?_foldl_insert
    (h : (es.foldl (fun m e => m.insert e.1 e.2) m).get? k = some b) :
    (k, b) ∈ es ∨ m.get? k = some b := by
  induction es generalizing m with
  | nil => exact .inr h
  | cons e es ih =>
    rcases ih h with h | h
    · exact .inl (List.mem_cons_of_mem e h)
    · by_cases hk : k = e.1
      · subst hk
        rw [get?_insert_self, Option.some.injEq] at h
        exact .inl (h ▸ List.mem_cons_self)
      · rw [get?_insert_of_ne hk] at h
        exact .inr h

theorem mem_of_get?_ofList (h : (ofList es).get? k = some b) : (k, b) ∈ es :=
  (mem_of_get?_foldl_insert h).resolve_right nofun

theorem get?_ofList_eq_some_iff (hes : (es.map Prod.fst).Nodup) :
    (ofList es).get? k = some b ↔ (k, b) ∈ es := by
  constructor
  · exact mem_of_get?_ofList
  · intro h
    exact get?_foldl_insert_of_mem hes h

theorem map_get?_ofList_zip {ks : List κ} {bs : List β} (hks : ks.Nodup)
    (h : ks.length ≤ bs.length) :
    ks.map (ofList (ks.zip bs)).get? = (bs.take ks.length).map some := by
  apply List.ext_getElem
  · rw [List.length_map, List.length_map, List.length_take, Nat.min_eq_left h]
  · intro i hi hi'
    rw [List.length_map] at hi
    rw [List.getElem_map, List.getElem_map, List.getElem_take, get?_ofList_eq_some_iff]
    · rw [← List.getElem_zip (h := by rw [List.length_zip]; omega)]
      exact List.getElem_mem _
    · rw [List.map_fst_zip h]
      exact hks

theorem nodup_keys_entries (m : FinMap κ β) : (m.entries.map Prod.fst).Nodup := by
  rw [List.Nodup, List.pairwise_map]
  exact m.increasing.imp Ordered.ne_of_lt

theorem ofList_entries (m : FinMap κ β) : ofList m.entries = m := by
  apply ext
  intro k
  apply Option.ext
  intro b
  rw [get?_ofList_eq_some_iff m.nodup_keys_entries, mem_entries]

theorem entries_ofList (h : es.Pairwise fun e f => Ordered.Lt e.1 f.1) :
    (ofList es).entries = es := congrArg entries (ofList_entries ⟨es, h⟩)

end FinMap

end RegLang
