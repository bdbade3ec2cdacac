import RegLang.FinSet.Basic

/-!
This module contains finite maps over an ordered type of keys. A map is kept as its entries in
strictly increasing order of their keys, so equal maps are equal values.
-/

namespace RegLang

structure FinMap (κ β : Type) [Ordered κ] where
  entries : List (κ × β)
  increasing : entries.Pairwise (fun e f => Ordered.Lt e.1 f.1)

namespace FinMap

variable {κ β γ : Type} [Ordered κ]

def lookup (k : κ) : List (κ × β) → Option β
  | [] => none
  | e :: es =>
    match compare k e.1 with
    | .lt => none
    | .eq => some e.2
    | .gt => lookup k es

def place (k : κ) (f : Option β → β) : List (κ × β) → List (κ × β)
  | [] => [(k, f none)]
  | e :: es =>
    match compare k e.1 with
    | .lt => (k, f none) :: e :: es
    | .eq => (k, f (some e.2)) :: es
    | .gt => e :: place k f es

theorem fst_mem_of_mem_place {k : κ} {f : Option β → β} {es : List (κ × β)} {x : κ × β}
    (h : x ∈ place k f es) : x.1 = k ∨ x ∈ es := by
  induction es with
  | nil =>
    rw [place, List.mem_singleton] at h
    exact .inl (h ▸ rfl)
  | cons e es ih =>
    unfold place at h
    split at h
    · rcases List.mem_cons.mp h with rfl | h
      · exact .inl rfl
      · exact .inr h
    · rcases List.mem_cons.mp h with rfl | h
      · exact .inl rfl
      · exact .inr (List.mem_cons_of_mem _ h)
    · rcases List.mem_cons.mp h with rfl | h
      · exact .inr List.mem_cons_self
      · exact (ih h).imp_right (List.mem_cons_of_mem _)

theorem pairwise_place {k : κ} {f : Option β → β} {es : List (κ × β)}
    (h : es.Pairwise (fun e f => Ordered.Lt e.1 f.1)) :
    (place k f es).Pairwise (fun e f => Ordered.Lt e.1 f.1) := by
  induction es with
  | nil => exact List.pairwise_singleton _ _
  | cons e es ih =>
    have ⟨he, hes⟩ := List.pairwise_cons.mp h
    unfold place
    split
    · rename_i hk
      refine List.pairwise_cons.mpr ⟨fun x hx => ?_, h⟩
      rcases List.mem_cons.mp hx with rfl | hx
      · exact hk
      · exact Ordered.lt_trans hk (he x hx)
    · rename_i hk
      exact List.pairwise_cons.mpr ⟨fun x hx => Ordered.eq_of_compare hk ▸ he x hx, hes⟩
    · rename_i hk
      refine List.pairwise_cons.mpr ⟨fun x hx => ?_, ih hes⟩
      rcases fst_mem_of_mem_place hx with hx | hx
      · exact hx ▸ Ordered.lt_of_compare_gt hk
      · exact he x hx

def empty : FinMap κ β := ⟨[], .nil⟩

def get? (m : FinMap κ β) (k : κ) : Option β := lookup k m.entries

def contains (m : FinMap κ β) (k : κ) : Bool := (m.get? k).isSome

def update (m : FinMap κ β) (k : κ) (f : Option β → β) : FinMap κ β :=
  ⟨place k f m.entries, pairwise_place m.increasing⟩

def insert (m : FinMap κ β) (k : κ) (b : β) : FinMap κ β := m.update k (fun _ => b)

/--
The map of a list of entries; of two entries with one key the later counts.
-/
def ofList (es : List (κ × β)) : FinMap κ β :=
  es.foldl (fun m e => m.insert e.1 e.2) empty

def isEmpty (m : FinMap κ β) : Bool := m.entries.isEmpty

def keys (m : FinMap κ β) : FinSet κ :=
  ⟨m.entries.map Prod.fst, List.pairwise_map.mpr m.increasing⟩

def values (m : FinMap κ β) : List β := m.entries.map Prod.snd

theorem pairwise_filterMap {es : List (κ × β)} (f : κ → β → Option γ)
    (h : es.Pairwise (fun e f => Ordered.Lt e.1 f.1)) :
    (es.filterMap (fun e => (f e.1 e.2).map (e.1, ·))).Pairwise
      (fun e f => Ordered.Lt e.1 f.1) := by
  refine h.filterMap _ fun a b hab x hx y hy => ?_
  obtain ⟨_, _, rfl⟩ := Option.map_eq_some_iff.mp hx
  obtain ⟨_, _, rfl⟩ := Option.map_eq_some_iff.mp hy
  exact hab

def filterMap (m : FinMap κ β) (f : κ → β → Option γ) : FinMap κ γ :=
  ⟨m.entries.filterMap (fun e => (f e.1 e.2).map (e.1, ·)), pairwise_filterMap f m.increasing⟩

theorem ext_entries {m n : FinMap κ β} (h : m.entries = n.entries) : m = n := by
  cases m; cases n; simp_all

instance [DecidableEq κ] [DecidableEq β] : DecidableEq (FinMap κ β) := fun m n =>
  decidable_of_iff (m.entries = n.entries) ⟨ext_entries, fun h => h ▸ rfl⟩

end FinMap

end RegLang
