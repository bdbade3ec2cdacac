import RegLang.Json.Reader.Basic

/-!
This module contains the readers of lists, and of objects whose fields all have values of one type.
-/

namespace RegLang

namespace Json

namespace Reader

variable {α : Type}

def items (item : Reader α) (isFirst : Bool) (ts : List Token) :
    Except Problem (List α × List Token) :=
  match hn : nextItem? isFirst ts with
  | .error problem => .error problem
  | .ok none => (closeBracket ts).map ([], ·)
  | .ok (some next) =>
    match hi : item.read next with
    | .error problem => .error problem
    | .ok (a, rest) =>
      have : rest.length < ts.length :=
        Nat.lt_of_lt_of_le (item.shorter hi) (length_of_nextItem? hn)
      (items item false rest).map fun r => (a :: r.1, r.2)
termination_by ts.length

theorem length_of_items {item : Reader α} {isFirst : Bool} {ts rest : List Token} {as : List α}
    (h : items item isFirst ts = .ok (as, rest)) : rest.length < ts.length := by
  fun_induction items item isFirst ts generalizing as with
  | case1 => cases h
  | case2 =>
    obtain ⟨_, hc, h⟩ := exists_of_map h
    cases h
    exact length_of_expect hc
  | case3 => cases h
  | case4 isFirst ts next hn a rest' hi _ ih =>
    obtain ⟨r, hr, h⟩ := exists_of_map h
    cases h
    have := ih hr
    have := length_of_nextItem? hn
    have := item.shorter hi
    omega

def list (item : Reader α) : Reader (List α) where
  read
    | .openBracket :: ts => items item true ts
    | ts => .error (mismatch ts)
  shorter h := by
    split at h
    · exact Nat.lt_succ_of_lt (length_of_items h)
    · cases h

def fields (value : Reader α) (isFirst : Bool) (ts : List Token) :
    Except Problem (List (String × α) × List Token) :=
  match hn : nextField? isFirst ts with
  | .error problem => .error problem
  | .ok none => (closeBrace ts).map ([], ·)
  | .ok (some (name, next)) =>
    match hv : (fieldValue value).read next with
    | .error problem => .error problem
    | .ok (a, rest) =>
      have : rest.length < ts.length :=
        Nat.lt_trans ((fieldValue value).shorter hv) (length_of_nextField? hn)
      (fields value false rest).map fun r => ((name, a) :: r.1, r.2)
termination_by ts.length

theorem length_of_fields {value : Reader α} {isFirst : Bool} {ts rest : List Token}
    {es : List (String × α)} (h : fields value isFirst ts = .ok (es, rest)) :
    rest.length < ts.length := by
  fun_induction fields value isFirst ts generalizing es with
  | case1 => cases h
  | case2 =>
    obtain ⟨_, hc, h⟩ := exists_of_map h
    cases h
    exact length_of_expect hc
  | case3 => cases h
  | case4 isFirst ts name next hn a rest' hv _ ih =>
    obtain ⟨r, hr, h⟩ := exists_of_map h
    cases h
    have := ih hr
    have := length_of_nextField? hn
    have := (fieldValue value).shorter hv
    omega

def object (value : Reader α) : Reader (List (String × α)) where
  read
    | .openBrace :: ts => fields value true ts
    | ts => .error (mismatch ts)
  shorter h := by
    split at h
    · exact Nat.lt_succ_of_lt (length_of_fields h)
    · cases h

end Reader

end Json

end RegLang
