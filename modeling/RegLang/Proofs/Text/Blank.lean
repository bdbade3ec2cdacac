import RegLang.Text.Blank

/-!
This module contains what trimming a text and erasing its blanks do: which characters are left, and
that blanks can be erased before a text is trimmed or split at a character that is no blank.
-/

namespace RegLang

namespace Text

variable {c : Char} {cs ds blanks rest : List Char}

def eraseBlanks (cs : List Char) : List Char := cs.filter fun c => !isBlank c

section Trim

theorem trimLeft_append (h : ∀ c, c ∈ blanks → isBlank c = true) :
    trimLeft (blanks ++ cs) = trimLeft cs :=
  List.dropWhile_append_of_pos h

theorem trimLeft_cons (h : isBlank c = false) : trimLeft (c :: cs) = c :: cs :=
  List.dropWhile_cons_of_neg (Bool.not_eq_true _ ▸ h)

theorem exists_append_trimLeft (cs : List Char) :
    ∃ blanks, cs = blanks ++ trimLeft cs ∧ ∀ c, c ∈ blanks → isBlank c = true := by
  refine ⟨cs.takeWhile isBlank, List.takeWhile_append_dropWhile.symm, ?_⟩
  exact List.all_eq_true.mp List.all_takeWhile

theorem isBlank_of_trimLeft_eq_cons (h : trimLeft cs = c :: rest) : isBlank c = false := by
  have hhead := List.head?_dropWhile_not isBlank cs
  unfold trimLeft at h
  rw [h] at hhead
  exact hhead

theorem trimRight_eq : trimRight cs = (trimLeft cs.reverse).reverse := rfl

theorem trimRight_prefix (cs : List Char) : trimRight cs <+: cs := by
  rw [← List.reverse_suffix, trimRight_eq, List.reverse_reverse]
  exact List.dropWhile_suffix isBlank

theorem trimRight_append_cons (h : isBlank c = false) :
    trimRight (cs ++ c :: ds) = cs ++ c :: trimRight ds := by
  have hleft :
      trimLeft (ds.reverse ++ c :: cs.reverse) = trimLeft ds.reverse ++ c :: cs.reverse := by
    unfold trimLeft
    rw [List.dropWhile_append]
    split
    · next he =>
      rw [List.isEmpty_iff.mp he]
      exact trimLeft_cons h
    · rfl
  rw [trimRight_eq, trimRight_eq, List.reverse_append, List.reverse_cons, List.append_assoc,
    List.singleton_append, hleft]
  simp

theorem trimRight_cons (h : isBlank c = false) : trimRight (c :: cs) = c :: trimRight cs :=
  @trimRight_append_cons c [] cs h

theorem trim_append_cons (hb : ∀ c, c ∈ blanks → isBlank c = true) (hc : isBlank c = false) :
    trim (blanks ++ c :: cs) = c :: trimRight cs := by
  unfold trim
  rw [trimLeft_append hb, trimLeft_cons hc, trimRight_cons hc]

theorem trimLeft_eq_nil (h : ∀ c, c ∈ cs → isBlank c = true) : trimLeft cs = [] :=
  List.append_nil cs ▸ trimLeft_append h

theorem trimRight_append (h : ∀ c, c ∈ blanks → isBlank c = true) :
    trimRight (cs ++ blanks) = trimRight cs := by
  rw [trimRight_eq, trimRight_eq, List.reverse_append, trimLeft_append]
  intro c hc
  exact h c (List.mem_reverse.mp hc)

theorem trim_append (h : ∀ c, c ∈ blanks → isBlank c = true) : trim (cs ++ blanks) = trim cs := by
  have hleft : trimLeft (cs ++ blanks) =
      if (trimLeft cs).isEmpty then trimLeft blanks else trimLeft cs ++ blanks :=
    List.dropWhile_append
  unfold trim
  rw [hleft]
  split
  · next he => rw [trimLeft_eq_nil h, List.isEmpty_iff.mp he]
  · exact trimRight_append h

theorem isBlank_of_trim_eq_cons (h : trim cs = c :: rest) : isBlank c = false := by
  unfold trim at h
  rcases trimRight_prefix (trimLeft cs) with ⟨dropped, hdropped⟩
  rw [h, List.cons_append] at hdropped
  exact isBlank_of_trimLeft_eq_cons hdropped.symm

end Trim

section Erase

theorem mem_eraseBlanks : c ∈ eraseBlanks cs ↔ c ∈ cs ∧ isBlank c = false := by
  simp [eraseBlanks]

theorem isBlank_of_mem_eraseBlanks (h : c ∈ eraseBlanks cs) : isBlank c = false :=
  (mem_eraseBlanks.mp h).2

theorem eraseBlanks_append : eraseBlanks (cs ++ ds) = eraseBlanks cs ++ eraseBlanks ds :=
  List.filter_append cs ds

theorem eraseBlanks_cons (h : isBlank c = false) : eraseBlanks (c :: cs) = c :: eraseBlanks cs :=
  List.filter_cons_of_pos (by rw [h]; rfl)

theorem eraseBlanks_cons_of_isBlank (h : isBlank c = true) :
    eraseBlanks (c :: cs) = eraseBlanks cs :=
  List.filter_cons_of_neg (by rw [h]; exact Bool.false_ne_true)

theorem eraseBlanks_reverse : eraseBlanks cs.reverse = (eraseBlanks cs).reverse :=
  List.filter_reverse

theorem eraseBlanks_eq_self_iff : eraseBlanks cs = cs ↔ ∀ c, c ∈ cs → isBlank c = false := by
  simp [eraseBlanks]

theorem eraseBlanks_eraseBlanks : eraseBlanks (eraseBlanks cs) = eraseBlanks cs :=
  eraseBlanks_eq_self_iff.mpr fun _ => isBlank_of_mem_eraseBlanks

theorem eraseBlanks_eq_nil_iff : eraseBlanks cs = [] ↔ ∀ c, c ∈ cs → isBlank c = true := by
  simp [eraseBlanks]

theorem eraseBlanks_eq_singleton_iff :
    eraseBlanks cs = [c] ↔ isBlank c = false ∧ ∃ blanks rest, cs = blanks ++ c :: rest ∧
      (∀ d, d ∈ blanks → isBlank d = true) ∧ ∀ d, d ∈ rest → isBlank d = true := by
  simp only [← eraseBlanks_eq_nil_iff]
  constructor
  · intro h
    rcases List.filter_eq_cons_iff.mp h with ⟨blanks, rest, hcs, hblanks, hc, hrest⟩
    refine ⟨?_, blanks, rest, hcs, ?_, hrest⟩
    · simpa using hc
    · exact List.filter_eq_nil_iff.mpr hblanks
  · rintro ⟨hc, blanks, rest, hcs, hblanks, hrest⟩
    rw [hcs, eraseBlanks_append, hblanks, eraseBlanks_cons hc, hrest]
    rfl

theorem eraseBlanks_trimLeft : eraseBlanks (trimLeft cs) = eraseBlanks cs := by
  unfold trimLeft
  induction cs with
  | nil => rfl
  | cons c cs ih =>
    cases hc : isBlank c with
    | true => rw [List.dropWhile_cons_of_pos hc, ih, eraseBlanks_cons_of_isBlank hc]
    | false => rw [List.dropWhile_cons_of_neg (by simp [hc])]

theorem eraseBlanks_trimRight : eraseBlanks (trimRight cs) = eraseBlanks cs := by
  rw [trimRight_eq, eraseBlanks_reverse, eraseBlanks_trimLeft, eraseBlanks_reverse,
    List.reverse_reverse]

theorem eraseBlanks_trim : eraseBlanks (trim cs) = eraseBlanks cs := by
  unfold trim
  rw [eraseBlanks_trimRight, eraseBlanks_trimLeft]

theorem trim_eq_nil_iff : trim cs = [] ↔ eraseBlanks cs = [] := by
  constructor
  · intro h
    rw [← eraseBlanks_trim, h]
    rfl
  · intro h
    cases ht : trim cs with
    | nil => rfl
    | cons c rest =>
      rw [← eraseBlanks_trim, ht, eraseBlanks_cons (isBlank_of_trim_eq_cons ht)] at h
      cases h

theorem trim_eq_singleton_iff (hc : isBlank c = false) : trim cs = [c] ↔ eraseBlanks cs = [c] := by
  constructor
  · intro h
    rw [← eraseBlanks_trim, h]
    exact eraseBlanks_eq_self_iff.mpr fun d hd => List.mem_singleton.mp hd ▸ hc
  · intro h
    rcases eraseBlanks_eq_singleton_iff.mp h with ⟨_, blanks, rest, hcs, hblanks, hrest⟩
    rw [hcs, trim_append_cons hblanks hc, ← List.nil_append rest, trimRight_append hrest]
    rfl

theorem map_eraseBlanks_splitOn (hc : isBlank c = false) :
    (cs.splitOn c).map eraseBlanks = (eraseBlanks cs).splitOn c := by
  induction cs with
  | nil => rfl
  | cons d cs ih =>
    cases hs : cs.splitOn c with
    | nil => exact absurd hs (List.splitOn_ne_nil c cs)
    | cons piece pieces =>
      rw [hs, List.map_cons] at ih
      rw [List.splitOn_cons_eq_if_modifyHead, hs]
      by_cases hd : d = c
      · rw [hd, if_pos (beq_self_eq_true c), eraseBlanks_cons hc,
          List.splitOn_cons_eq_if_modifyHead, if_pos (beq_self_eq_true c), ← ih]
        rfl
      · have hdc : ¬ (d == c) = true := by simpa using hd
        rw [if_neg hdc, List.modifyHead_cons, List.map_cons]
        cases hb : isBlank d with
        | true => rw [eraseBlanks_cons_of_isBlank hb, eraseBlanks_cons_of_isBlank hb, ih]
        | false =>
          rw [eraseBlanks_cons hb, eraseBlanks_cons hb, List.splitOn_cons_eq_if_modifyHead,
            if_neg hdc, ← ih, List.modifyHead_cons]

end Erase

end Text

end RegLang
