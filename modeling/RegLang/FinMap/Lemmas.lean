import RegLang.FinMap.Basic
import RegLang.FinSet.Lemmas

/-!
This module contains the lookup laws of the operations on finite maps, and that a map is
determined by the values of its keys.
-/

namespace RegLang

namespace FinMap

variable {κ β γ : Type} [Ordered κ] {m n : FinMap κ β} {k l : κ} {b : β}

@[simp]
theorem get?_empty : (empty : FinMap κ β).get? k = none := rfl

theorem lookup_eq_some_iff {es : List (κ × β)} (h : es.Pairwise (fun e f => Ordered.Lt e.1 f.1)) :
    lookup k es = some b ↔ (k, b) ∈ es := by
  induction es with
  | nil => simp [lookup]
  | cons e es ih =>
    have ⟨he, hes⟩ := List.pairwise_cons.mp h
    unfold lookup
    split
    · rename_i hk
      simp only [reduceCtorEq, List.mem_cons, false_iff, not_or]
      refine ⟨fun hm => ?_, fun hm => Ordered.lt_asymm hk (he _ hm)⟩
      exact Ordered.ne_of_lt hk (congrArg Prod.fst hm)
    · rename_i hk
      have hk := Ordered.eq_of_compare hk
      subst hk
      simp only [Option.some.injEq, List.mem_cons]
      refine ⟨fun hb => .inl (hb ▸ rfl), fun hm => hm.elim (fun hm => hm ▸ rfl) fun hm => ?_⟩
      exact absurd (he _ hm) (Ordered.lt_irrefl _)
    · rename_i hk
      rw [ih hes, List.mem_cons]
      refine ⟨.inr, fun hm => hm.resolve_left fun hm => ?_⟩
      exact Ordered.ne_of_lt (Ordered.lt_of_compare_gt hk) (congrArg Prod.fst hm).symm

@[simp]
theorem mem_entries : (k, b) ∈ m.entries ↔ m.get? k = some b :=
  (lookup_eq_some_iff m.increasing).symm

theorem ext (h : ∀ k, m.get? k = n.get? k) : m = n := by
  refine ext_entries (List.Perm.eq_of_pairwise ?_ m.increasing n.increasing ?_)
  · exact fun a b _ _ hab hba => absurd hba (Ordered.lt_asymm hab)
  · have nodup (p : FinMap κ β) : p.entries.Nodup :=
      p.increasing.imp fun h e => Ordered.ne_of_lt h (congrArg Prod.fst e)
    refine (List.perm_ext_iff_of_nodup (nodup m) (nodup n)).mpr fun e => ?_
    rw [mem_entries, mem_entries, h]

theorem lookup_place_self (k : κ) (f : Option β → β) (es : List (κ × β)) :
    lookup k (place k f es) = some (f (lookup k es)) := by
  induction es with
  | nil => simp [place, lookup]
  | cons e es ih =>
    unfold place lookup
    cases h : compare k e.1 <;> simp [h, ih]

theorem lookup_place_of_ne {f : Option β → β} {es : List (κ × β)}
    (h : es.Pairwise (fun e f => Ordered.Lt e.1 f.1)) (hl : l ≠ k) :
    lookup l (place k f es) = lookup l es := by
  refine Option.ext fun b => ?_
  rw [lookup_eq_some_iff (pairwise_place h), lookup_eq_some_iff h]
  induction es with
  | nil => simp [place, hl]
  | cons e es ih =>
    unfold place
    split
    · simp [hl]
    · rename_i hk
      have hk := Ordered.eq_of_compare hk
      simp [hl, Prod.ext_iff, ← hk]
    · simp [ih (List.pairwise_cons.mp h).2]

theorem get?_update_self (f : Option β → β) : (m.update k f).get? k = some (f (m.get? k)) :=
  lookup_place_self k f m.entries

theorem get?_update_of_ne {f : Option β → β} (h : l ≠ k) : (m.update k f).get? l = m.get? l :=
  lookup_place_of_ne m.increasing h

@[simp]
theorem get?_insert_self : (m.insert k b).get? k = some b := get?_update_self _

theorem get?_insert_of_ne (h : l ≠ k) : (m.insert k b).get? l = m.get? l := get?_update_of_ne h

theorem get?_filterMap (f : κ → β → Option γ) :
    (m.filterMap f).get? k = (m.get? k).bind (f k) := by
  refine Option.ext fun c => ?_
  rw [← mem_entries, Option.bind_eq_some_iff]
  simp only [filterMap, List.mem_filterMap, Option.map_eq_some_iff, ← mem_entries]
  constructor
  · rintro ⟨e, he, c', hc, h⟩
    cases h
    exact ⟨e.2, he, hc⟩
  · rintro ⟨b, hb, hc⟩
    exact ⟨(k, b), hb, c, hc, rfl⟩

theorem findSome?_entries_eq_some_iff {f : κ × β → Option γ} {c : γ} :
    m.entries.findSome? f = some c ↔
      ∃ k b, m.get? k = some b ∧ f (k, b) = some c ∧
        ∀ l d, m.get? l = some d → Ordered.Lt l k → f (l, d) = none := by
  rw [Ordered.findSome?_eq_some_iff_of_pairwise (fun _ _ => Ordered.lt_asymm) m.increasing]
  simp only [Prod.exists, Prod.forall, mem_entries]

theorem contains_iff : m.contains k = true ↔ ∃ b, m.get? k = some b := Option.isSome_iff_exists

@[simp]
theorem mem_keys : k ∈ m.keys ↔ ∃ b, m.get? k = some b := by
  simp [← FinSet.mem_toList, keys]

@[simp]
theorem mem_values : b ∈ m.values ↔ ∃ k, m.get? k = some b := by
  simp [values]

@[simp]
theorem isEmpty_iff : m.isEmpty = true ↔ m = empty := by
  rw [isEmpty, List.isEmpty_iff]
  exact ⟨fun h => ext_entries h, fun h => h ▸ rfl⟩

end FinMap

end RegLang
