import RegLang.WordSource

/-!
This module contains what the choice among alternatives can come to: a chosen alternative is one of
them, and each of fewer than `2 ^ 32` alternatives is chosen by some word.
-/

namespace RegLang

namespace WordSource

variable {α : Type} {alternatives : List α} {source : WordSource} {n i drawn : Nat}
  {words : List UInt32}

theorem drawIndex_lt (hn : 0 < n) : (drawIndex n words drawn).1 < n := by
  induction words generalizing drawn with
  | nil => exact hn
  | cons word words ih =>
    unfold drawIndex
    split
    · unfold slot
      apply Nat.div_lt_of_lt_mul
      apply Nat.mul_lt_mul_of_pos_right
      · exact word.toNat_lt_size
      · exact hn
    · exact ih

theorem choose_nil : source.choose ([] : List α) = (none, source) := rfl

theorem choose_of_ne_nil (source : WordSource) (h : alternatives ≠ []) :
    ∃ a next, a ∈ alternatives ∧ source.choose alternatives = (some a, next) := by
  unfold choose
  rw [if_neg (by rwa [List.isEmpty_iff])]
  generalize hd : drawIndex alternatives.length source.pending source.drawn = d
  have hlt : d.1 < alternatives.length := by
    rw [← hd]
    apply drawIndex_lt
    exact List.length_pos_iff.mpr h
  refine ⟨alternatives[d.1], d.2, List.getElem_mem hlt, ?_⟩
  dsimp only
  rw [List.getElem?_eq_getElem hlt]

/--
The least of the words that point at the alternative `i` among `n`.
-/
def leastWord (n i : Nat) : UInt32 := UInt32.ofNat ((i * UInt32.size + (n - 1)) / n)

theorem toNat_leastWord_mul (hi : i < n) (hn : n < UInt32.size) :
    i * UInt32.size ≤ (leastWord n i).toNat * n ∧
      (leastWord n i).toNat * n < i * UInt32.size + n := by
  have hmod := Nat.mod_lt (i * UInt32.size + (n - 1)) (Nat.zero_lt_of_lt hi)
  have hdiv := Nat.div_add_mod' (i * UInt32.size + (n - 1)) n
  have hword : (i * UInt32.size + (n - 1)) / n < UInt32.size := by
    apply Nat.div_lt_of_lt_mul
    have hle : (i + 1) * UInt32.size ≤ n * UInt32.size := Nat.mul_le_mul_right _ hi
    rw [Nat.add_one_mul] at hle
    omega
  unfold leastWord
  rw [UInt32.toNat_ofNat', Nat.mod_eq_of_lt hword]
  omega

theorem slot_leastWord (hi : i < n) (hn : n < UInt32.size) : slot n (leastWord n i) = i := by
  have h := toNat_leastWord_mul hi hn
  unfold slot
  apply Nat.div_eq_of_lt_le
  · exact h.1
  · rw [Nat.add_one_mul]
    omega

theorem decides_leastWord (hi : i < n) (hn : n < UInt32.size) :
    decides n (leastWord n i) = true := by
  have h := toNat_leastWord_mul hi hn
  have hs : (leastWord n i).toNat * n / UInt32.size = i := slot_leastWord hi hn
  have hmod := Nat.div_add_mod' ((leastWord n i).toNat * n) UInt32.size
  rw [hs] at hmod
  have hle : n ≤ n <<< (31 - Nat.log2 n) := by
    rw [Nat.shiftLeft_eq]
    exact Nat.le_mul_of_pos_right n (Nat.two_pow_pos _)
  unfold decides
  rw [decide_eq_true_eq]
  omega

theorem choose_leastWord (hi : i < alternatives.length)
    (hn : alternatives.length < UInt32.size) :
    choose ⟨leastWord alternatives.length i :: words, drawn⟩ alternatives =
      (some alternatives[i], ⟨words, drawn + 1⟩) := by
  have hne : ¬ alternatives.isEmpty = true := by
    rw [List.isEmpty_iff, ← List.length_eq_zero_iff]
    omega
  unfold choose
  rw [if_neg hne]
  unfold drawIndex
  rw [if_pos (decides_leastWord hi hn), slot_leastWord hi hn]
  dsimp only
  rw [List.getElem?_eq_getElem hi]

end WordSource

end RegLang
