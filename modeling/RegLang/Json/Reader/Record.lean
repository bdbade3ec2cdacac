import RegLang.Json.Reader.Skip

/-!
This module contains the readers of records: values with named fields of different types, written as
objects or as lists.
-/

namespace RegLang

namespace Json

namespace Reader

variable {α δ : Type}

structure Field (δ : Type) where
  name : String
  isSet : δ → Bool
  read : δ → Reader δ

def Field.of (name : String) (value : Reader α) (get : δ → Option α) (set : δ → α → δ) :
    Field δ where
  name := name
  isSet d := (get d).isSome
  read d := value.map (set d)

def byPosition : List (Field δ) → (isFirst : Bool) → δ → List Token →
    Except Problem (δ × List Token)
  | [], _, d, ts => .ok (d, ts)
  | f :: fs, isFirst, d, ts => do
    match ← nextItem? isFirst ts with
    | none => return (d, ts)
    | some ts =>
      let (d, ts) ← (f.read d).read ts
      byPosition fs false d ts

theorem length_of_byPosition {fs : List (Field δ)} {isFirst : Bool} {d d' : δ}
    {ts rest : List Token} (h : byPosition fs isFirst d ts = .ok (d', rest)) :
    rest.length ≤ ts.length := by
  induction fs generalizing isFirst d ts with
  | nil => cases h; simp
  | cons f fs ih =>
    obtain ⟨next, hn, h⟩ := exists_of_bind h
    split at h
    · cases h; simp
    · obtain ⟨_, hf, h⟩ := exists_of_bind h
      have := length_of_nextItem? hn
      have := (f.read d).shorter hf
      have := ih h
      omega

/--
Read the field with the given name into a draft. A field given twice is a problem; one of another
name is skipped.
-/
def namedField (fs : List (Field δ)) (name : String) (d : δ) : Reader δ :=
  match fs.find? fun f => f.name == name with
  | some f =>
    if f.isSet d then
      { read := fun _ => .error .mismatched, shorter := fun h => nomatch h }
    else
      fieldValue (f.read d)
  | none => (fieldValue anyValue).map fun _ => d

def byName (fs : List (Field δ)) (isFirst : Bool) (d : δ) (ts : List Token) :
    Except Problem (δ × List Token) :=
  match hn : nextField? isFirst ts with
  | .error problem => .error problem
  | .ok none => .ok (d, ts)
  | .ok (some (name, following)) =>
    match hf : (namedField fs name d).read following with
    | .error problem => .error problem
    | .ok (next, rest) =>
      have : rest.length < ts.length :=
        Nat.lt_trans ((namedField fs name d).shorter hf) (length_of_nextField? hn)
      byName fs false next rest
termination_by ts.length

theorem length_of_byName {fs : List (Field δ)} {isFirst : Bool} {d d' : δ} {ts rest : List Token}
    (h : byName fs isFirst d ts = .ok (d', rest)) : rest.length ≤ ts.length := by
  fun_induction byName fs isFirst d ts with
  | case1 => cases h
  | case2 => cases h; simp
  | case3 => cases h
  | case4 isFirst d ts name following hn next rest' hf _ ih =>
    have := length_of_nextField? hn
    have := (namedField fs name d).shorter hf
    have := ih h
    omega

def close (finish : δ → Option α) (last : List Token → Except Problem (List Token)) (d : δ)
    (ts : List Token) : Except Problem (α × List Token) :=
  match finish d with
  | some a => (last ts).map (a, ·)
  | none => .error .mismatched

theorem length_of_close {finish : δ → Option α} {isWanted : Token → Bool} {d : δ}
    {ts rest : List Token} {a : α} (h : close finish (expect isWanted) d ts = .ok (a, rest)) :
    rest.length < ts.length := by
  unfold close at h
  split at h
  · obtain ⟨_, hl, h⟩ := exists_of_map h
    cases h
    exact length_of_expect hl
  · cases h

/--
A record, written as an object or as the list of its fields. `finish` makes it from the draft,
unless fields are missing.
-/
def record (fs : List (Field δ)) (empty : δ) (finish : δ → Option α) : Reader α where
  read
    | .openBracket :: ts => do
      let (d, ts) ← byPosition fs true empty ts
      close finish closeBracket d ts
    | .openBrace :: ts => do
      let (d, ts) ← byName fs true empty ts
      close finish closeBrace d ts
    | ts => .error (mismatch ts)
  shorter h := by
    split at h
    · obtain ⟨_, hd, h⟩ := exists_of_bind h
      exact Nat.lt_succ_of_lt (Nat.lt_of_lt_of_le (length_of_close h) (length_of_byPosition hd))
    · obtain ⟨_, hd, h⟩ := exists_of_bind h
      exact Nat.lt_succ_of_lt (Nat.lt_of_lt_of_le (length_of_close h) (length_of_byName hd))
    · cases h

end Reader

end Json

end RegLang
