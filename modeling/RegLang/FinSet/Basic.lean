import RegLang.Ordered
import RegLang.Text.Listed

/-!
This module contains finite sets over an ordered type. A set is kept as its members in strictly
increasing order, so equal sets are equal values and a set of sets is again a set.
-/

namespace RegLang

structure FinSet (α : Type) [Ordered α] where
  toList : List α
  increasing : toList.Pairwise Ordered.Lt

namespace FinSet

variable {α β : Type} [Ordered α] [Ordered β]

def place (a : α) : List α → List α
  | [] => [a]
  | b :: bs =>
    match compare a b with
    | .lt => a :: b :: bs
    | .eq => b :: bs
    | .gt => b :: place a bs

theorem mem_place {a x : α} {bs : List α} : x ∈ place a bs ↔ x = a ∨ x ∈ bs := by
  induction bs with
  | nil => simp [place]
  | cons b bs ih =>
    unfold place
    split
    · simp
    · rename_i h
      have := Ordered.eq_of_compare h
      grind
    · simp only [List.mem_cons, ih]
      grind

theorem pairwise_place {a : α} {bs : List α} (h : bs.Pairwise Ordered.Lt) :
    (place a bs).Pairwise Ordered.Lt := by
  induction bs with
  | nil => simp [place]
  | cons b bs ih =>
    have ⟨hb, hbs⟩ := List.pairwise_cons.mp h
    unfold place
    split
    · rename_i hab
      refine List.pairwise_cons.mpr ⟨fun x hx => ?_, h⟩
      rcases List.mem_cons.mp hx with rfl | hx
      · exact hab
      · exact Ordered.lt_trans hab (hb x hx)
    · exact h
    · rename_i hab
      refine List.pairwise_cons.mpr ⟨fun x hx => ?_, ih hbs⟩
      rcases mem_place.mp hx with rfl | hx
      · exact Ordered.lt_of_compare_gt hab
      · exact hb x hx

def empty : FinSet α := ⟨[], .nil⟩

def insert (s : FinSet α) (a : α) : FinSet α :=
  ⟨place a s.toList, pairwise_place s.increasing⟩

def ofList (as : List α) : FinSet α :=
  as.foldr (fun a s => s.insert a) empty

def singleton (a : α) : FinSet α := ⟨[a], List.pairwise_singleton _ _⟩

def union (s t : FinSet α) : FinSet α :=
  s.toList.foldr (fun a u => u.insert a) t

instance : Membership α (FinSet α) := ⟨fun s a => a ∈ s.toList⟩

def contains (s : FinSet α) (a : α) : Bool :=
  go s.toList
where
  go : List α → Bool
    | [] => false
    | b :: bs =>
      match compare a b with
      | .lt => false
      | .eq => true
      | .gt => go bs

def isEmpty (s : FinSet α) : Bool := s.toList.isEmpty

def size (s : FinSet α) : Nat := s.toList.length

def any (s : FinSet α) (p : α → Bool) : Bool := s.toList.any p

def find? (s : FinSet α) (p : α → Bool) : Option α := s.toList.find? p

def filter (s : FinSet α) (p : α → Bool) : FinSet α :=
  ⟨s.toList.filter p, s.increasing.filter p⟩

def map (s : FinSet α) (f : α → β) : FinSet β := ofList (s.toList.map f)

def bind (s : FinSet α) (f : α → FinSet β) : FinSet β :=
  s.toList.foldr (fun a t => (f a).union t) empty

def names [ToString α] (s : FinSet α) : List String := s.toList.map toString

instance [ToString α] : ToString (FinSet α) := ⟨fun s => Text.braced s.names⟩

theorem ext_toList {s t : FinSet α} (h : s.toList = t.toList) : s = t := by
  cases s; cases t; simp_all

theorem toList_inj {s t : FinSet α} : s.toList = t.toList ↔ s = t :=
  ⟨ext_toList, fun h => h ▸ rfl⟩

instance [DecidableEq α] : DecidableEq (FinSet α) := fun s t =>
  decidable_of_iff (s.toList = t.toList) toList_inj

instance : Ord (FinSet α) := ⟨fun s t => compare s.toList t.toList⟩

instance : Ordered (FinSet α) where
  transOrd :=
    { eq_swap := fun {s t} => Std.OrientedCmp.eq_swap (a := s.toList) (b := t.toList)
      isLE_trans := fun {s t u} => Std.TransCmp.isLE_trans (a := s.toList) (b := t.toList)
        (c := u.toList) }
  lawfulEqOrd :=
    { compare_self := fun {s} => @Std.ReflCmp.compare_self (List α) compare _ s.toList
      eq_of_compare := fun h => ext_toList (Std.LawfulEqCmp.eq_of_compare h) }

end FinSet

end RegLang
