import RegLang.Json.Text

/-!
This module contains the JSON values that definitions are written as, and their written form.
-/

namespace RegLang

inductive Json where
  | text (content : String)
  | list (items : List Json)
  | object (fields : List (String × Json))

namespace Json

structure Layout where
  /-- What stands before an item or a closing bracket at a depth of nesting. -/
  lineBreak : Nat → List Char
  colon : List Char

namespace Layout

def compact : Layout := ⟨fun _ => [], [':']⟩

def pretty : Layout := ⟨fun depth => '\n' :: List.replicate (2 * depth) ' ', [':', ' ']⟩

end Layout

mutual

def render (layout : Layout) (depth : Nat) : Json → List Char
  | text content => Text.encode content.toList
  | list [] => ['[', ']']
  | list (item :: items) =>
    '[' :: layout.lineBreak (depth + 1) ++ render layout (depth + 1) item
      ++ renderItems layout (depth + 1) items ++ layout.lineBreak depth ++ [']']
  | object [] => ['\x7b', '\x7d']
  | object ((name, value) :: fields) =>
    '\x7b' :: layout.lineBreak (depth + 1) ++ Text.encode name.toList ++ layout.colon
      ++ render layout (depth + 1) value ++ renderFields layout (depth + 1) fields
      ++ layout.lineBreak depth ++ ['\x7d']

def renderItems (layout : Layout) (depth : Nat) : List Json → List Char
  | [] => []
  | item :: items =>
    ',' :: layout.lineBreak depth ++ render layout depth item ++ renderItems layout depth items

def renderFields (layout : Layout) (depth : Nat) : List (String × Json) → List Char
  | [] => []
  | (name, value) :: fields =>
    ',' :: layout.lineBreak depth ++ Text.encode name.toList ++ layout.colon
      ++ render layout depth value ++ renderFields layout depth fields

end

def compact (j : Json) : List Char := render .compact 0 j

def pretty (j : Json) : List Char := render .pretty 0 j

def ofChar (c : Char) : Json := text (String.singleton c)

end Json

end RegLang
