import Mathlib.Data.List.Chain
import RegLang.Text.Blank
import RegLang.Text.Letter

/-!
This module contains the order of the letters that can name non-terminals: they come with
increasing code points, so none of them comes twice. None of them is a blank.
-/

namespace RegLang

namespace Text

variable {r : Nat × Nat} {n : Nat} {c d : Char}

/--
Whether a range of code points does not touch the surrogates and ends with the last code point.
-/
def IsRange (r : Nat × Nat) : Prop := r.2 < 0xD800 ∨ 0xDFFF < r.1 ∧ r.2 < 0x110000

instance : DecidablePred IsRange := fun _ => inferInstanceAs (Decidable (_ ∨ _))

def Precedes (r s : Nat × Nat) : Prop := r.2 < s.1 ∧ s.1 ≤ s.2

instance : DecidableRel Precedes := fun _ _ => inferInstanceAs (Decidable (_ ∧ _))

instance : Trans Precedes Precedes Precedes where
  trans h h' := ⟨Nat.lt_trans (Nat.lt_of_lt_of_le h.1 h.2) h'.1, h'.2⟩

def nameRanges : List (Nat × Nat) := (0x41, 0x5A) :: letterRanges

theorem nameLetters_eq : nameLetters = nameRanges.flatMap lettersOfRange := rfl

theorem isRange_of_mem : ∀ r, r ∈ nameRanges → IsRange r := by decide +kernel

theorem isChain_nameRanges : nameRanges.IsChain Precedes := by decide +kernel

theorem toNat_ofNat_of_isRange (hr : IsRange r) (hn : r.1 ≤ n ∧ n ≤ r.2) :
    (Char.ofNat n).toNat = n := by
  have hv : n.isValidChar := by
    unfold IsRange at hr
    unfold Nat.isValidChar
    omega
  rw [Char.ofNat, dif_pos hv]
  rfl

theorem mem_lettersOfRange (hr : IsRange r) :
    c ∈ lettersOfRange r ↔ r.1 ≤ c.toNat ∧ c.toNat ≤ r.2 := by
  unfold lettersOfRange
  rw [List.mem_map]
  constructor
  · rintro ⟨n, hn, hc⟩
    rw [List.mem_range'_1] at hn
    rw [← hc, toNat_ofNat_of_isRange hr (by omega)]
    omega
  · intro h
    refine ⟨c.toNat, ?_, Char.ofNat_toNat c⟩
    rw [List.mem_range'_1]
    omega

theorem pairwise_lettersOfRange (hr : IsRange r) :
    (lettersOfRange r).Pairwise fun c d => c.toNat < d.toNat := by
  unfold lettersOfRange
  rw [List.pairwise_map]
  apply (List.pairwise_lt_range' 1).imp_of_mem
  intro m n hm hn h
  rw [List.mem_range'_1] at hm hn
  rw [toNat_ofNat_of_isRange hr (by omega), toNat_ofNat_of_isRange hr (by omega)]
  exact h

theorem pairwise_nameLetters : nameLetters.Pairwise fun c d => c.toNat < d.toNat := by
  rw [nameLetters_eq, List.pairwise_flatMap]
  constructor
  · intro r hr
    exact pairwise_lettersOfRange (isRange_of_mem r hr)
  · apply (List.isChain_iff_pairwise.mp isChain_nameRanges).imp_of_mem
    intro r s hr hs h c hc d hd
    rw [mem_lettersOfRange (isRange_of_mem r hr)] at hc
    rw [mem_lettersOfRange (isRange_of_mem s hs)] at hd
    exact Nat.lt_of_le_of_lt hc.2 (Nat.lt_of_lt_of_le h.1 hd.1)

theorem nodup_nameLetters : nameLetters.Nodup := by
  apply pairwise_nameLetters.imp
  intro c d h e
  rw [e] at h
  exact Nat.lt_irrefl _ h

theorem apart_of_mem : ∀ r, r ∈ nameRanges → ∀ s, s ∈ blankRanges → r.2 < s.1 ∨ s.2 < r.1 := by
  decide +kernel

theorem isBlank_of_mem_nameLetters (h : c ∈ nameLetters) : isBlank c = false := by
  rw [nameLetters_eq, List.mem_flatMap] at h
  rcases h with ⟨r, hr, hc⟩
  rw [mem_lettersOfRange (isRange_of_mem r hr)] at hc
  rw [isBlank, List.any_eq_false]
  intro s hs hb
  rw [Bool.and_eq_true, decide_eq_true_iff, decide_eq_true_iff] at hb
  have := apart_of_mem r hr s hs
  omega

end Text

end RegLang
