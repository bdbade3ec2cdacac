/-!
This module contains what is known of computations that can fail once they are done: a sequence of
two has succeeded if both have, and the traversal of a list if each step has.
-/

namespace RegLang

variable {ε α β : Type} {as : List α} {bs : List β} {a : α} {b : β} {e : ε}

theorem exists_of_bind_eq_ok {x : Except ε α} {f : α → Except ε β} (h : (do f (← x)) = .ok b) :
    ∃ a, x = .ok a ∧ f a = .ok b := by
  cases x with
  | error e => cases h
  | ok a => exact ⟨a, rfl, h⟩

variable {f : α → Except ε β}

theorem map_eq_of_mapM_eq_ok (h : as.mapM f = .ok bs) : as.map f = bs.map .ok := by
  induction as generalizing bs with
  | nil =>
    cases h
    rfl
  | cons a as ih =>
    rw [List.mapM_cons] at h
    rcases exists_of_bind_eq_ok h with ⟨b, ha, h⟩
    rcases exists_of_bind_eq_ok h with ⟨bs, has, h⟩
    cases h
    rw [List.map_cons, List.map_cons, ha, ih has]

theorem mapM_eq_ok_of_map_eq (h : as.map f = bs.map .ok) : as.mapM f = .ok bs := by
  induction as generalizing bs with
  | nil =>
    cases bs with
    | nil => rfl
    | cons b bs => cases h
  | cons a as ih =>
    cases bs with
    | nil => cases h
    | cons b bs =>
      rw [List.map_cons, List.map_cons, List.cons.injEq] at h
      rw [List.mapM_cons, h.1, ih h.2]
      rfl

theorem exists_of_mem_mapM (h : as.mapM f = .ok bs) (hb : b ∈ bs) : ∃ a, a ∈ as ∧ f a = .ok b := by
  apply List.mem_map.mp
  rw [map_eq_of_mapM_eq_ok h]
  exact List.mem_map_of_mem hb

theorem exists_mem_of_mapM (h : as.mapM f = .ok bs) (ha : a ∈ as) : ∃ b, b ∈ bs ∧ f a = .ok b := by
  have hmem : f a ∈ bs.map .ok := by
    rw [← map_eq_of_mapM_eq_ok h]
    exact List.mem_map_of_mem ha
  rcases List.mem_map.mp hmem with ⟨b, hb, hf⟩
  exact ⟨b, hb, hf.symm⟩

theorem exists_of_mapM_eq_error (h : as.mapM f = .error e) : ∃ a, a ∈ as ∧ f a = .error e := by
  induction as with
  | nil => cases h
  | cons a as ih =>
    rw [List.mapM_cons] at h
    cases ha : f a with
    | error e' =>
      rw [ha] at h
      cases h
      exact ⟨a, List.mem_cons_self, ha⟩
    | ok b =>
      rw [ha] at h
      cases has : as.mapM f with
      | error e' =>
        rw [has] at h
        cases h
        rcases ih has with ⟨a', ha', hf⟩
        exact ⟨a', List.mem_cons_of_mem a ha', hf⟩
      | ok bs =>
        rw [has] at h
        cases h

end RegLang
