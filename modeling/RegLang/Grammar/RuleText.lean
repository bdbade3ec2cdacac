import RegLang.Grammar.Builder

/-!
This module contains the reader of rule text. Each line of rule text is blank, a comment that starts
with `#`, or a rule such as `A -> aB | a | ε`; the first left-hand side is the start symbol.
-/

namespace RegLang

namespace Grammar

namespace RuleText

structure Rule where
  lhs : Char
  alternatives : List (List Char)
  deriving Repr, DecidableEq

def afterArrow? : List Char → Option (List Char)
  | '-' :: '>' :: cs => some cs
  | '→' :: cs => some cs
  | _ => none

def alternatives (rhs : List Char) : List (List Char) := (rhs.splitOn '|').map Text.trim

def readRule (number : Nat) (line : List Char) : Except Error Rule :=
  match line with
  | [] => .error (.malformedRule number "")
  | lhs :: rest =>
    match afterArrow? (Text.trimLeft rest) with
    | none => .error (.malformedRule number (String.ofList line))
    | some rhs =>
      let alternatives := alternatives rhs
      if 1 < alternatives.length ∧ [] ∈ alternatives then
        .error (.emptyAlternative number (String.ofList line))
      else
        .ok ⟨lhs, alternatives⟩

def isSkipped : List Char → Bool
  | [] => true
  | c :: _ => c == '#'

def readLines (number : Nat) : List (List Char) → Except Error (List Rule)
  | [] => .ok []
  | line :: lines =>
    let line := Text.trim line
    if isSkipped line then
      readLines (number + 1) lines
    else do
      let rule ← readRule number line
      let rules ← readLines (number + 1) lines
      return rule :: rules

def builder? (rules : List Rule) : Option Builder :=
  rules.head?.map fun first =>
    rules.foldl (fun b r => b.addRules r.lhs r.alternatives) { start := first.lhs }

end RuleText

def ofRuleText (text : List Char) : Except Error Grammar := do
  let rules ← RuleText.readLines 1 (text.splitOn '\n')
  match RuleText.builder? rules with
  | some b => b.build
  | none => throw .noRules

end Grammar

end RegLang
