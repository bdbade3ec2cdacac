import RegLang.Json.Reader.Basic

/-!
This module contains the reader that drops a value of any type. It keeps track of the lists and
objects around the current token by itself, so no depth of nesting is too much for it.
-/

namespace RegLang

namespace Json

namespace Reader

inductive Frame where
  | list
  | object

inductive Want where
  | value
  /-- The first item of a list, or its end. -/
  | item
  | field
  /-- The first field of an object, or its end. -/
  | firstField
  | colon
  /-- A comma, or the end of the innermost list or object. -/
  | comma

def afterValue (frames : List Frame) : Option (List Frame × Want) :=
  if frames.isEmpty then none else some (frames, .comma)

def skipValue (frames : List Frame) :
    Token → Except Problem (Option (List Frame × Want))
  | .text _ => .ok (afterValue frames)
  | .number _ => .ok (afterValue frames)
  | .word => .ok (afterValue frames)
  | .openBracket => .ok (some (.list :: frames, .item))
  | .openBrace => .ok (some (.object :: frames, .firstField))
  | .broken _ _ skipped => .error skipped
  | _ => .error .malformed

def skipField (frames : List Frame) :
    Token → Except Problem (Option (List Frame × Want))
  | .text _ => .ok (some (frames, .colon))
  | .broken true _ skipped => .error skipped
  | _ => .error .malformed

def skipToken (frames : List Frame) (want : Want) (t : Token) :
    Except Problem (Option (List Frame × Want)) :=
  match want, t, frames with
  | .item, .closeBracket, _ :: frames => .ok (afterValue frames)
  | .firstField, .closeBrace, _ :: frames => .ok (afterValue frames)
  | .comma, .closeBracket, .list :: frames => .ok (afterValue frames)
  | .comma, .closeBrace, .object :: frames => .ok (afterValue frames)
  | .comma, .comma, .list :: _ => .ok (some (frames, .value))
  | .comma, .comma, .object :: _ => .ok (some (frames, .field))
  | .colon, .colon, _ => .ok (some (frames, .value))
  | .value, t, _ => skipValue frames t
  | .item, t, _ => skipValue frames t
  | .field, t, _ => skipField frames t
  | .firstField, t, _ => skipField frames t
  | _, _, _ => .error .malformed

def skip (frames : List Frame) (want : Want) : List Token → Except Problem (List Token)
  | [] => .error .truncated
  | t :: ts => do
    match ← skipToken frames want t with
    | none => return ts
    | some (frames, want) => skip frames want ts

theorem length_of_skip {frames : List Frame} {want : Want} {ts rest : List Token}
    (h : skip frames want ts = .ok rest) : rest.length < ts.length := by
  induction ts generalizing frames want with
  | nil => cases h
  | cons t ts ih =>
    obtain ⟨next, _, h⟩ := exists_of_bind h
    split at h
    · cases h; simp
    · exact Nat.lt_succ_of_lt (ih h)

def anyValue : Reader Unit where
  read ts := (skip [] .value ts).map ((), ·)
  shorter h := by
    obtain ⟨_, hs, h⟩ := exists_of_map h
    cases h
    exact length_of_skip hs

end Reader

end Json

end RegLang
