import RegLang.Json.Number
import RegLang.Json.Text

/-!
This module contains the tokens of JSON text and their scanner. Text that is no JSON shows as a last
token: what is wrong counts only for a reader that comes to it.
-/

namespace RegLang

namespace Json

inductive Token where
  | openBrace
  | closeBrace
  | openBracket
  | closeBracket
  | colon
  | comma
  /-- A string: its content, or what is wrong with it if it is kept. -/
  | text (kept : Except Problem String)
  /-- A number: what is wrong with it if it is kept. -/
  | number (kept : Problem)
  | word
  /-- The end of what can be scanned, within a string or elsewhere: what is wrong with the text if
  the value at this place is kept, and what if it is skipped. -/
  | broken (inText : Bool) (kept skipped : Problem)

namespace Token

def isSpace (c : Char) : Bool := c == ' ' || c == '\n' || c == '\t' || c == '\r'

def mark? : Char → Option Token
  | '\x7b' => some openBrace
  | '\x7d' => some closeBrace
  | '[' => some openBracket
  | ']' => some closeBracket
  | ':' => some colon
  | ',' => some comma
  | _ => none

def wordRest? : Char → Option (List Char)
  | 'n' => some ['u', 'l', 'l']
  | 't' => some ['r', 'u', 'e']
  | 'f' => some ['a', 'l', 's', 'e']
  | _ => none

def expect : List Char → List Char → Except Problem (List Char)
  | [], cs => .ok cs
  | _ :: _, [] => .error .truncated
  | e :: es, c :: cs => if c = e then expect es cs else .error .malformed

def next (c : Char) (cs : List Char) : Token × List Char :=
  match mark? c with
  | some mark => (mark, cs)
  | none =>
    if c = '"' then
      match Text.scan none cs with
      | .closed kept rest => (text (kept.map String.ofList), rest)
      | .broken kept skipped => (broken true kept skipped, [])
    else if c = '-' ∨ c.isDigit then
      match Number.scan (c :: cs) with
      | .ended kept rest => (number kept, rest)
      | .broken kept skipped => (broken false kept skipped, [])
    else
      match wordRest? c with
      | some rest =>
        match expect rest cs with
        | .ok rest => (word, rest)
        | .error problem => (broken false problem problem, [])
      | none => (broken false .malformed .malformed, [])

end Token

end Json

end RegLang
