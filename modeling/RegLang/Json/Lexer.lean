import RegLang.Json.Token

/-!
This module contains the division of JSON text into tokens. Every token takes up some text, which
is why the division ends.
-/

namespace RegLang

namespace Json

namespace Text

namespace Scan

variable {s : Scan} {kept : Except Problem (List Char)} {rest : List Char}

theorem closed_of_push {c : Char} (h : s.push c = .closed kept rest) :
    ∃ kept, s = .closed kept rest := by
  cases s with
  | closed kept' rest' => simp only [push, closed.injEq] at h; exact ⟨kept', h.2 ▸ rfl⟩
  | broken => simp [push] at h

theorem closed_of_unkept (h : s.unkept = .closed kept rest) : ∃ kept, s = .closed kept rest := by
  cases s with
  | closed kept' rest' => simp only [unkept, closed.injEq] at h; exact ⟨kept', h.2 ▸ rfl⟩
  | broken => simp [unkept] at h

theorem closed_of_after {leading : Option Nat} (h : s.after leading = .closed kept rest) :
    ∃ kept, s = .closed kept rest := by
  unfold after at h
  split at h
  · exact closed_of_unkept h
  · exact ⟨kept, h⟩

end Scan

theorem length_of_scan {leading : Option Nat} {cs : List Char}
    {kept : Except Problem (List Char)} {rest : List Char}
    (h : scan leading cs = .closed kept rest) : rest.length < cs.length := by
  fun_induction scan leading cs generalizing kept with
  | case1 | case3 | case4 | case10 | case11 | case12 | case14 => cases h
  | case2 leading cs =>
    obtain ⟨_, h⟩ := Scan.closed_of_after h
    cases h
    simp
  | case5 a b c d cs unit _ first _ ih | case9 a b c d cs unit _ first _ ih =>
    obtain ⟨_, h⟩ := Scan.closed_of_push h
    have := ih h
    simp only [List.length_cons]
    omega
  | case6 a b c d cs unit _ first _ ih | case7 a b c d cs unit _ first ih =>
    obtain ⟨_, h⟩ := Scan.closed_of_unkept h
    have := ih h
    simp only [List.length_cons]
    omega
  | case8 a b c d cs unit _ _ _ ih =>
    have := ih h
    simp only [List.length_cons]
    omega
  | case13 leading e cs _ _ c _ ih =>
    obtain ⟨_, h⟩ := Scan.closed_of_after h
    obtain ⟨_, h⟩ := Scan.closed_of_push h
    have := ih h
    simp only [List.length_cons]
    omega
  | case15 =>
    rename_i ih
    obtain ⟨_, h⟩ := Scan.closed_of_after h
    obtain ⟨_, h⟩ := Scan.closed_of_push h
    have := ih h
    simp only [List.length_cons]
    omega

end Text

namespace Number

theorem length_afterDigits (cs : List Char) : (afterDigits cs).length ≤ cs.length :=
  (List.dropWhile_sublist _).length_le

theorem length_afterDigits_lt {cs : List Char} (h : digits cs ≠ []) :
    (afterDigits cs).length < cs.length := by
  have := congrArg List.length (List.takeWhile_append_dropWhile (p := Char.isDigit) (l := cs))
  have := List.length_pos_iff.mpr h
  simp only [List.length_append] at *
  unfold digits afterDigits at *
  omega

theorem length_of_scanExponentDigits {d : Decimal} {sign : Int} {cs rest : List Char}
    {kept : Problem} (h : scanExponentDigits d sign cs = .ended kept rest) :
    rest.length ≤ cs.length := by
  unfold scanExponentDigits at h
  split at h
  · cases h
  · cases h
    exact length_afterDigits cs

theorem length_of_scanExponent {d : Decimal} {cs rest : List Char} {kept : Problem}
    (h : scanExponent d cs = .ended kept rest) : rest.length ≤ cs.length := by
  unfold scanExponent at h
  split at h
  · cases h; simp
  · split at h
    · split at h
      all_goals
        have := length_of_scanExponentDigits h
        simp only [List.length_cons] at *
        omega
    · cases h; simp

theorem length_of_scanFraction {d : Decimal} {cs rest : List Char} {kept : Problem}
    (h : scanFraction d cs = .ended kept rest) : rest.length ≤ cs.length := by
  unfold scanFraction at h
  split at h
  · split at h
    · cases h
    · have := length_of_scanExponent h
      have := length_afterDigits (by assumption)
      simp only [List.length_cons]
      omega
  · exact length_of_scanExponent h

theorem length_of_scanUnsigned {cs rest : List Char} {kept : Problem}
    (h : scanUnsigned cs = .ended kept rest) : rest.length < cs.length := by
  unfold scanUnsigned at h
  split at h
  · cases h
  · have := length_of_scanFraction h
    have : (afterDigits cs).length < cs.length := length_afterDigits_lt (by simp_all)
    omega
  · cases h
  · have := length_of_scanFraction h
    have : (afterDigits cs).length < cs.length := length_afterDigits_lt (by assumption)
    omega

theorem length_of_scan {cs rest : List Char} {kept : Problem} (h : scan cs = .ended kept rest) :
    rest.length < cs.length := by
  unfold scan at h
  split at h
  · have := length_of_scanUnsigned h
    simp only [List.length_cons]
    omega
  · exact length_of_scanUnsigned h

end Number

namespace Token

theorem length_of_expect {es cs rest : List Char} (h : expect es cs = .ok rest) :
    rest.length ≤ cs.length := by
  fun_induction expect es cs with
  | case1 cs => cases h; simp
  | case2 => cases h
  | case3 _ _ _ ih => have := ih h; simp only [List.length_cons]; omega
  | case4 => cases h

theorem length_next_snd (c : Char) (cs : List Char) : (next c cs).2.length ≤ cs.length := by
  unfold next
  split
  · simp
  · split
    · split
      · rename_i h
        exact Nat.le_of_lt (Text.length_of_scan h)
      · simp
    · split
      · split
        · rename_i h
          exact Nat.le_of_lt_succ (Number.length_of_scan h)
        · simp
      · split
        · split
          · rename_i h
            exact length_of_expect h
          · simp
        · simp

end Token

def tokens : List Char → List Token
  | [] => []
  | c :: cs =>
    if Token.isSpace c then
      tokens cs
    else
      (Token.next c cs).1 :: tokens (Token.next c cs).2
termination_by cs => cs.length
decreasing_by
  · simp
  · have := Token.length_next_snd c cs
    simp only [List.length_cons]
    omega

end Json

end RegLang
