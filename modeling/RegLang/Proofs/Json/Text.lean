import RegLang.Json.Text

/-!
This module contains the round trip of JSON strings: the scan of a written string gives the string
back.
-/

namespace RegLang

namespace Json

namespace Text

variable {c : Char} {cs rest : List Char} {n : Nat}

theorem hexValue?_hexDigit : ∀ n, n < 16 → hexValue? (hexDigit n) = some n := by decide

theorem unit?_of_lt (hn : n < 0x20) :
    unit? '0' '0' (hexDigit (n / 16)) (hexDigit (n % 16)) = some n := by
  unfold unit?
  rw [hexValue?_hexDigit (n / 16) (by omega), hexValue?_hexDigit (n % 16) (by omega)]
  have hzero : hexValue? '0' = some 0 := rfl
  simp only [hzero, Option.bind_eq_bind, Option.bind_some, pure, Option.some.injEq]
  omega

theorem scan_control (hc : c.toNat < 0x20) :
    scan none ('\\' :: 'u' :: '0' :: '0' :: hexDigit (c.toNat / 16) :: hexDigit (c.toNat % 16) ::
      cs) = (scan none cs).push c := by
  have htrailing : isTrailing c.toNat = false := by
    simp [isTrailing]
    omega
  have hleading : isLeading c.toNat = false := by
    simp [isLeading]
    omega
  rw [scan, unit?_of_lt hc]
  simp [htrailing, hleading]

theorem scan_plain (hquote : c ≠ '"') (hbackslash : c ≠ '\\') (hc : ¬ c.toNat < 0x20) :
    scan none (c :: cs) = (scan none cs).push c := by
  rw [scan]
  · rw [if_neg hc]
    rfl
  all_goals simp_all

theorem scan_encodeChar : scan none (encodeChar c ++ cs) = (scan none cs).push c := by
  unfold encodeChar
  split
  case h_8 hquote hbackslash _ _ _ _ _ =>
    split
    · next hc => exact scan_control hc
    · next hc => exact scan_plain hquote hbackslash hc
  -- The other cases are the escapes of one character.
  all_goals
    rw [List.cons_append, List.cons_append, List.nil_append, scan.eq_def]
    rfl

theorem scan_flatMap_encodeChar :
    scan none (cs.flatMap encodeChar ++ '"' :: rest) = .closed (.ok cs) rest := by
  induction cs with
  | nil => rfl
  | cons c cs ih =>
    rw [List.flatMap_cons, List.append_assoc, scan_encodeChar, ih]
    rfl

end Text

end Json

end RegLang
