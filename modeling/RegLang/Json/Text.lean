import RegLang.Json.Problem

/-!
This module contains the written form of JSON strings: the escapes that write them, and the scan
that reads one up to its closing quote.

Whoever keeps a string needs its escapes to denote characters; whoever skips it only needs their
form. The scan answers both.
-/

namespace RegLang

namespace Json

namespace Text

def hexDigit (n : Nat) : Char :=
  if n < 10 then Char.ofNat (n + 48) else Char.ofNat (n + 87)

def encodeChar (c : Char) : List Char :=
  match c with
  | '"' => ['\\', '"']
  | '\\' => ['\\', '\\']
  | '\x08' => ['\\', 'b']
  | '\t' => ['\\', 't']
  | '\n' => ['\\', 'n']
  | '\x0c' => ['\\', 'f']
  | '\r' => ['\\', 'r']
  | c =>
    if c.toNat < 0x20 then
      ['\\', 'u', '0', '0', hexDigit (c.toNat / 16), hexDigit (c.toNat % 16)]
    else
      [c]

def encode (cs : List Char) : List Char := '"' :: cs.flatMap encodeChar ++ ['"']

def unescape? : Char → Option Char
  | '"' => some '"'
  | '\\' => some '\\'
  | '/' => some '/'
  | 'b' => some '\x08'
  | 'f' => some '\x0c'
  | 'n' => some '\n'
  | 'r' => some '\r'
  | 't' => some '\t'
  | _ => none

def hexValue? (c : Char) : Option Nat :=
  if '0' ≤ c ∧ c ≤ '9' then some (c.toNat - 48)
  else if 'a' ≤ c ∧ c ≤ 'f' then some (c.toNat - 87)
  else if 'A' ≤ c ∧ c ≤ 'F' then some (c.toNat - 55)
  else none

def unit? (a b c d : Char) : Option Nat := do
  let a ← hexValue? a
  let b ← hexValue? b
  let c ← hexValue? c
  let d ← hexValue? d
  return ((a * 16 + b) * 16 + c) * 16 + d

def isLeading (unit : Nat) : Bool := 0xD800 ≤ unit && unit < 0xDC00

def isTrailing (unit : Nat) : Bool := 0xDC00 ≤ unit && unit < 0xE000

def pair (leading trailing : Nat) : Char :=
  Char.ofNat (0x10000 + (leading - 0xD800) * 0x400 + (trailing - 0xDC00))

inductive Scan where
  /-- The string is closed. Its content, or what is wrong with it if it is kept, and the text that
  follows. -/
  | closed (kept : Except Problem (List Char)) (rest : List Char)
  /-- The string is never closed. What is wrong if it is kept, and what if it is skipped. -/
  | broken (kept skipped : Problem)

namespace Scan

def push (c : Char) : Scan → Scan
  | closed kept rest => closed (kept.map (c :: ·)) rest
  | broken kept skipped => broken kept skipped

def unkept : Scan → Scan
  | closed _ rest => closed (.error .malformed) rest
  | broken _ skipped => broken .malformed skipped

/--
The outcome after an escape that may be a lone first half of a pair.
-/
def after (leading : Option Nat) (s : Scan) : Scan := if leading.isSome then s.unkept else s

end Scan

def scan (leading : Option Nat) : List Char → Scan
  | [] => .broken .truncated .truncated
  | '"' :: cs => .after leading (.closed (.ok []) cs)
  | ['\\'] => .broken .truncated .truncated
  | '\\' :: 'u' :: a :: b :: c :: d :: cs =>
    match unit? a b c d with
    | none => .broken .malformed .malformed
    | some unit =>
      match leading with
      | some first =>
        if isTrailing unit then .push (pair first unit) (scan none cs) else .unkept (scan none cs)
      | none =>
        if isTrailing unit then .unkept (scan none cs)
        else if isLeading unit then scan (some unit) cs
        else .push (Char.ofNat unit) (scan none cs)
  | '\\' :: 'u' :: cs =>
    -- The digits of the escape are missing only if fewer than four bytes of text follow.
    if (String.ofList cs).utf8ByteSize < 4 then .broken .truncated .truncated
    else .broken .malformed .malformed
  | '\\' :: e :: cs =>
    match unescape? e with
    | none => .broken .malformed .malformed
    | some c => .after leading (.push c (scan none cs))
  | c :: cs =>
    if c.toNat < 0x20 then .broken .malformed .malformed
    else .after leading (.push c (scan none cs))

end Text

end Json

end RegLang
