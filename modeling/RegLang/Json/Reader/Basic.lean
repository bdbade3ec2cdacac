import RegLang.Error
import RegLang.Json.Lexer

/-!
This module contains the readers of JSON values of a known type, and those of strings. A reader
takes its value from the front of a list of tokens. It stops at the first problem: a token that
cannot stand where it stands, or one that is no part of the wanted value. Every value takes up at
least one token, which is why the reading of lists and objects ends.
-/

namespace RegLang

namespace Json

structure Reader (α : Type) where
  read : List Token → Except Problem (α × List Token)
  shorter : ∀ {ts a rest}, read ts = .ok (a, rest) → rest.length < ts.length

namespace Reader

variable {α β δ : Type}

theorem exists_of_bind {x : Except Problem α} {f : α → Except Problem β} {b : β}
    (h : x >>= f = .ok b) : ∃ a, x = .ok a ∧ f a = .ok b := by
  cases x with
  | error => cases h
  | ok a => exact ⟨a, rfl, h⟩

theorem exists_of_map {x : Except Problem α} {f : α → β} {b : β} (h : x.map f = .ok b) :
    ∃ a, x = .ok a ∧ f a = b := by
  cases x with
  | error => cases h
  | ok a => cases h; exact ⟨a, rfl, rfl⟩

def refine (r : Reader α) (f : α → Except Problem β) : Reader β where
  read ts := do
    let (a, rest) ← r.read ts
    return (← f a, rest)
  shorter h := by
    obtain ⟨⟨a, rest⟩, hr, h⟩ := exists_of_bind h
    obtain ⟨b, _, h⟩ := exists_of_bind h
    cases h
    exact r.shorter hr

def map (r : Reader α) (f : α → β) : Reader β := r.refine fun a => .ok (f a)

def mismatch : List Token → Problem
  | [] => .truncated
  | .text (.ok _) :: _ => .mismatched
  | .text (.error problem) :: _ => problem
  | .number problem :: _ => problem
  | .word :: _ => .mismatched
  | .openBrace :: _ => .mismatched
  | .openBracket :: _ => .mismatched
  | .broken _ problem _ :: _ => problem
  | _ => .malformed

def expect (isWanted : Token → Bool) : List Token → Except Problem (List Token)
  | [] => .error .truncated
  | t :: ts => if isWanted t then .ok ts else .error .malformed

theorem length_of_expect {isWanted : Token → Bool} {ts rest : List Token}
    (h : expect isWanted ts = .ok rest) : rest.length < ts.length := by
  unfold expect at h
  split at h
  · cases h
  · split at h
    · cases h; simp
    · cases h

def closeBrace : List Token → Except Problem (List Token) :=
  expect fun | .closeBrace => true | _ => false

def closeBracket : List Token → Except Problem (List Token) :=
  expect fun | .closeBracket => true | _ => false

def colon : List Token → Except Problem (List Token) :=
  expect fun | .colon => true | _ => false

def string : Reader String where
  read
    | .text (.ok content) :: ts => .ok (content, ts)
    | ts => .error (mismatch ts)
  shorter h := by
    split at h
    · cases h; simp
    · cases h

def char : Reader Char :=
  string.refine fun content =>
    match content.toList with
    | [c] => .ok c
    | _ => .error .mismatched

/--
Where the next item of a list starts, unless the list ends before it. All items but the first
follow a comma.
-/
def nextItem? (isFirst : Bool) : List Token → Except Problem (Option (List Token))
  | [] => .error .truncated
  | .closeBracket :: _ => .ok none
  | t :: ts =>
    if isFirst then
      .ok (some (t :: ts))
    else
      match t, ts with
      | .comma, [] => .error .truncated
      | .comma, .closeBracket :: _ => .error .malformed
      | .comma, ts => .ok (some ts)
      | _, _ => .error .malformed

theorem length_of_nextItem? {isFirst : Bool} {ts rest : List Token}
    (h : nextItem? isFirst ts = .ok (some rest)) : rest.length ≤ ts.length := by
  unfold nextItem? at h
  split at h
  · cases h
  · cases h
  · split at h
    · cases h; simp
    · split at h
      all_goals cases h
      simp

def fieldName : Reader String where
  read
    | .text kept :: ts => kept.map (·, ts)
    | .broken true kept _ :: _ => .error kept
    | [] => .error .truncated
    | _ => .error .malformed
  shorter {ts a rest} h := by
    split at h
    · rename_i kept _
      cases kept <;> cases h
      simp
    all_goals cases h

/--
The name of the next field of an object, unless the object ends before it. All fields but the first
follow a comma.
-/
def nextField? (isFirst : Bool) : List Token → Except Problem (Option (String × List Token))
  | [] => .error .truncated
  | .closeBrace :: _ => .ok none
  | t :: ts =>
    if isFirst then
      (fieldName.read (t :: ts)).map some
    else
      match t with
      | .comma => (fieldName.read ts).map some
      | _ => .error .malformed

theorem length_of_nextField? {isFirst : Bool} {ts rest : List Token} {name : String}
    (h : nextField? isFirst ts = .ok (some (name, rest))) : rest.length < ts.length := by
  unfold nextField? at h
  split at h
  · cases h
  · cases h
  · split at h
    · obtain ⟨_, hf, h⟩ := exists_of_map h
      cases h
      exact fieldName.shorter hf
    · split at h
      · obtain ⟨_, hf, h⟩ := exists_of_map h
        cases h
        exact Nat.lt_succ_of_lt (fieldName.shorter hf)
      · cases h

def fieldValue (value : Reader α) : Reader α where
  read ts := do value.read (← colon ts)
  shorter h := by
    obtain ⟨_, hc, h⟩ := exists_of_bind h
    exact Nat.lt_trans (value.shorter h) (length_of_expect hc)

def run (r : Reader α) (text : List Char) : Except Problem α := do
  let (a, ts) ← r.read (tokens text)
  if ts.isEmpty then return a else throw .malformed

end Reader

def read {α : Type} (r : Reader α) (text : List Char) : Except Error α :=
  match r.run text with
  | .ok a => .ok a
  | .error problem => .error (.json problem)

end Json

end RegLang
