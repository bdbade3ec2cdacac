import RegLang.Json.Problem

/-!
This module contains the scan of JSON numbers. No number is ever wanted here, so a scan tells only
where the number ends and what is wrong with it, if it is kept and if it is skipped.

A number that is kept also has to lie in the range of binary floating-point numbers with 53
significant digits and values below `2 ^ 1024`.
-/

namespace RegLang

namespace Json

namespace Number

/--
The digits of a decimal number that count, as an integer, and the power of ten that it is
multiplied by.
-/
structure Decimal where
  significand : Nat
  exponent : Int
  deriving Repr, DecidableEq

def appendDigit? (significand : Nat) (digit : Char) : Option Nat :=
  let n := significand * 10 + (digit.toNat - 48)
  if n < UInt64.size then some n else none

/--
Read digits before the point. Those that do not fit into the significand raise the exponent.
-/
def appendWhole (n : Nat) : List Char → Decimal
  | [] => ⟨n, 0⟩
  | d :: ds =>
    match appendDigit? n d with
    | some n => appendWhole n ds
    | none => ⟨n, (d :: ds).length⟩

def appendFraction (d : Decimal) : List Char → Decimal
  | [] => d
  | c :: cs =>
    match appendDigit? d.significand c with
    | some n => appendFraction ⟨n, d.exponent - 1⟩ cs
    | none => d

/--
Round to the nearest number with 53 significant binary digits, a tie to the even one.
-/
def roundSignificant (n : Nat) : Nat :=
  if n < 1 <<< 53 then
    n
  else
    let unit := 1 <<< (Nat.log2 n - 52)
    let q := n / unit
    let r := n % unit
    if unit < 2 * r ∨ (unit = 2 * r ∧ q % 2 = 1) then (q + 1) * unit else q * unit

/--
Whether a number is too large. Significand and power of ten are rounded before they are multiplied.
-/
def Decimal.isTooLarge (d : Decimal) : Bool :=
  d.significand != 0 &&
    (308 < d.exponent ||
      (0 ≤ d.exponent &&
        1 <<< 1024 ≤ roundSignificant
          (roundSignificant d.significand * roundSignificant (Nat.pow 10 d.exponent.toNat))))

inductive Scan where
  /-- The number ends. What is wrong with it if it is kept, and the text that follows. -/
  | ended (kept : Problem) (rest : List Char)
  /-- The number is no JSON. What is wrong if it is kept, and what if it is skipped. -/
  | broken (kept skipped : Problem)

def digitMissing (cs : List Char) : Scan :=
  .broken (if cs.isEmpty then .truncated else .malformed) .malformed

def ended (d : Decimal) (rest : List Char) : Scan :=
  .ended (if d.isTooLarge then .malformed else .mismatched) rest

def digits (cs : List Char) : List Char := cs.takeWhile Char.isDigit

def afterDigits (cs : List Char) : List Char := cs.dropWhile Char.isDigit

def value (ds : List Char) : Nat := ds.foldl (fun n d => n * 10 + (d.toNat - 48)) 0

def scanExponentDigits (d : Decimal) (sign : Int) (cs : List Char) : Scan :=
  if (digits cs).isEmpty then
    digitMissing cs
  else
    ended { d with exponent := d.exponent + sign * value (digits cs) } (afterDigits cs)

def scanExponent (d : Decimal) : List Char → Scan
  | [] => ended d []
  | c :: cs =>
    if c = 'e' ∨ c = 'E' then
      match cs with
      | '+' :: cs => scanExponentDigits d 1 cs
      | '-' :: cs => scanExponentDigits d (-1) cs
      | cs => scanExponentDigits d 1 cs
    else
      ended d (c :: cs)

def scanFraction (d : Decimal) : List Char → Scan
  | '.' :: cs =>
    if (digits cs).isEmpty then
      digitMissing cs
    else
      scanExponent (appendFraction d (digits cs)) (afterDigits cs)
  | cs => scanExponent d cs

/--
Scan a number after its sign. A zero in front stands alone.
-/
def scanUnsigned (cs : List Char) : Scan :=
  match digits cs with
  | [] => digitMissing cs
  | ['0'] => scanFraction ⟨0, 0⟩ (afterDigits cs)
  | '0' :: _ => .broken .malformed .malformed
  | ds => scanFraction (appendWhole 0 ds) (afterDigits cs)

def scan : List Char → Scan
  | '-' :: cs => scanUnsigned cs
  | cs => scanUnsigned cs

end Number

end Json

end RegLang
