import RegLang.Grammar.Builder
import RegLang.Grammar.Validity
import RegLang.Proofs.Production.Parse

/-!
This module contains what the builder infers from written rules: the kind of each symbol and the
alternatives of each non-terminal. The inferred parts always agree with each other, so that `ε` used
as a symbol is all that a builder can be refused for. Of a right-hand side only the characters that
are no blanks matter, and of the order of the rules only the order for each left-hand side.
-/

namespace RegLang

namespace Grammar

namespace Builder

variable {a b : Builder} {A c : Char} {rhs : List Char}

def rightHandSides (b : Builder) (A : Char) : List (List Char) :=
  (b.rules.filter fun r => r.1 = A).map Prod.snd

/--
Whether `ε` is the start symbol, a left-hand side or part of a right-hand side that is more than a
lone `ε`.
-/
def UsesEpsilon (b : Builder) : Prop :=
  b.start = epsilon ∨
    ∃ r, r ∈ b.rules ∧ (r.1 = epsilon ∨ (Text.trim r.2 ≠ [epsilon] ∧ epsilon ∈ r.2))

instance (b : Builder) : Decidable b.UsesEpsilon := inferInstanceAs (Decidable (_ ∨ _))

def inferred (b : Builder) : Grammar where
  nonTerminals := b.nonTerminals
  terminals := b.terminals
  productions := grouped b.productions
  start := b.start
  maxDepth := b.maxDepth

theorem mem_rightHandSides : rhs ∈ b.rightHandSides A ↔ (A, rhs) ∈ b.rules := by
  simp [rightHandSides]

section Symbols

theorem mem_nonTerminals :
    c ∈ b.nonTerminals ↔ c = b.start ∨ (∃ r, r ∈ b.rules ∧ r.1 = c) ∨
      ∃ r, r ∈ b.rules ∧ c ∈ r.2 ∧ c.isUpper = true := by
  unfold nonTerminals
  simp only [FinSet.mem_ofList, List.mem_cons, List.mem_flatMap, List.mem_filter, and_or_left,
    exists_or, eq_comm (a := c)]

theorem mem_terminals :
    c ∈ b.terminals ↔ (∃ r, r ∈ b.rules ∧ c ∈ Production.letters r.2) ∧ ¬ c ∈ b.nonTerminals := by
  unfold terminals productions
  simp only [FinSet.mem_ofList, List.mem_flatMap, List.mem_map, List.mem_filter]
  constructor
  · rintro ⟨_, ⟨r, hr, rfl⟩, s, ⟨hs, hterminal⟩, rfl⟩
    rcases Production.mem_parse.mp hs with ⟨d, hd, rfl⟩
    rw [Production.isTerminal_tag] at hterminal
    rw [Production.char_tag]
    exact ⟨⟨r, hr, hd⟩, hterminal⟩
  · rintro ⟨⟨r, hr, hc⟩, hn⟩
    refine ⟨_, ⟨r, hr, rfl⟩, Production.tag b.nonTerminals c, ⟨?_, ?_⟩, Production.char_tag⟩
    · exact Production.mem_parse.mpr ⟨c, hc, rfl⟩
    · exact Production.isTerminal_tag.mpr hn

theorem usesEpsilon_iff : b.UsesEpsilon ↔ epsilon ∈ b.nonTerminals ∨ epsilon ∈ b.terminals := by
  constructor
  · rintro (h | ⟨r, hr, h | ⟨htrim, hmem⟩⟩)
    · exact .inl (mem_nonTerminals.mpr (.inl h.symm))
    · exact .inl (mem_nonTerminals.mpr (.inr (.inl ⟨r, hr, h⟩)))
    · by_cases hn : epsilon ∈ b.nonTerminals
      · exact .inl hn
      · have hletter : epsilon ∈ Production.letters r.2 :=
          Production.mem_letters.mpr ⟨htrim, hmem, rfl⟩
        exact .inr (mem_terminals.mpr ⟨⟨r, hr, hletter⟩, hn⟩)
  · rintro (h | h)
    · rcases mem_nonTerminals.mp h with h | ⟨r, hr, h⟩ | ⟨_, _, _, hupper⟩
      · exact .inl h.symm
      · exact .inr ⟨r, hr, .inl h⟩
      · exact absurd hupper (by decide)
    · rcases (mem_terminals.mp h).1 with ⟨r, hr, hletter⟩
      rcases Production.mem_letters.mp hletter with ⟨htrim, hmem, _⟩
      exact .inr ⟨r, hr, .inr ⟨htrim, hmem⟩⟩

end Symbols

section Alternatives

variable {rules : List (Char × Production)} {m : FinMap Char (List Production)}

theorem get?_foldl_update :
    (rules.foldl (fun m r => m.update r.1 fun ps => ps.getD [] ++ [r.2]) m).get? A =
      if rules.filter (fun r => r.1 = A) = [] then m.get? A
      else some ((m.get? A).getD [] ++ (rules.filter fun r => r.1 = A).map Prod.snd) := by
  induction rules generalizing m with
  | nil => rfl
  | cons r rules ih =>
    rw [List.foldl_cons, ih]
    by_cases hr : r.1 = A
    · rw [List.filter_cons_of_pos (by simpa using hr), if_neg (List.cons_ne_nil _ _), ← hr,
        FinMap.get?_update_self]
      split
      · next h => simp [h]
      · simp
    · rw [List.filter_cons_of_neg (by simpa using hr), FinMap.get?_update_of_ne (Ne.symm hr)]

theorem get?_grouped_productions :
    (grouped b.productions).get? A =
      if b.rightHandSides A = [] then none
      else some ((b.rightHandSides A).map (Production.parse b.nonTerminals)) := by
  have hfilter : (b.productions.filter fun r => r.1 = A) =
      (b.rules.filter fun r => r.1 = A).map
        fun r => (r.1, Production.parse b.nonTerminals r.2) := by
    unfold productions
    rw [List.filter_map]
    rfl
  unfold grouped rightHandSides
  rw [get?_foldl_update, hfilter]
  simp only [List.map_eq_nil_iff, List.map_map, FinMap.get?_empty, Option.getD_none,
    List.nil_append]
  rfl

theorem productionsFor_inferred :
    b.inferred.productionsFor A = (b.rightHandSides A).map (Production.parse b.nonTerminals) := by
  unfold productionsFor inferred
  dsimp only
  rw [get?_grouped_productions]
  split
  · next h => rw [h]; rfl
  · rfl

theorem mem_keys_inferred :
    A ∈ b.inferred.productions.keys ↔ ∃ r, r ∈ b.rules ∧ r.1 = A := by
  unfold inferred
  rw [FinMap.mem_keys, get?_grouped_productions]
  unfold rightHandSides
  simp

end Alternatives

section Check

theorem isValid_inferred (h : ¬ b.UsesEpsilon) : b.inferred.IsValid where
  epsilon_not_mem_nonTerminals hn := h (usesEpsilon_iff.mpr (.inl hn))
  epsilon_not_mem_terminals ht := h (usesEpsilon_iff.mpr (.inr ht))
  disjoint c hn ht := (mem_terminals.mp ht).2 hn
  start_mem := mem_nonTerminals.mpr (.inl rfl)
  lhs_mem A ps hA := by
    apply mem_nonTerminals.mpr
    right; left
    exact mem_keys_inferred.mp (FinMap.mem_keys.mpr ⟨ps, hA⟩)
  declares A p s hp hs := by
    rw [productionsFor_inferred, List.mem_map] at hp
    rcases hp with ⟨rhs, hrhs, rfl⟩
    rcases Production.mem_parse.mp hs with ⟨c, hc, rfl⟩
    unfold Production.tag
    split
    · next hn => exact FinSet.contains_iff.mp hn
    · next hn =>
      rw [FinSet.contains_iff] at hn
      exact mem_terminals.mpr ⟨⟨(A, rhs), mem_rightHandSides.mp hrhs, hc⟩, hn⟩

theorem build_of_usesEpsilon (h : b.UsesEpsilon) : b.build = .error (.reservedSymbol epsilon) := by
  have hreserved : (b.nonTerminals.contains epsilon || b.terminals.contains epsilon) = true := by
    rw [Bool.or_eq_true, FinSet.contains_iff, FinSet.contains_iff]
    exact usesEpsilon_iff.mp h
  unfold build checked problem?
  dsimp only
  rw [if_pos hreserved]

theorem build_of_not_usesEpsilon (h : ¬ b.UsesEpsilon) : b.build = .ok b.inferred :=
  (isValid_inferred h).checked_eq

end Check

section Congruence

theorem exists_mem_rules_iff {P : List Char → Prop}
    (hP : ∀ rhs, P (Text.eraseBlanks rhs) ↔ P rhs) :
    (∃ r, r ∈ b.rules ∧ P r.2) ↔
      ∃ A cs, cs ∈ (b.rightHandSides A).map Text.eraseBlanks ∧ P cs := by
  constructor
  · rintro ⟨r, hr, h⟩
    exact ⟨r.1, _, List.mem_map_of_mem (mem_rightHandSides.mpr hr), (hP r.2).mpr h⟩
  · rintro ⟨A, cs, hcs, h⟩
    rcases List.mem_map.mp hcs with ⟨rhs, hrhs, rfl⟩
    exact ⟨(A, rhs), mem_rightHandSides.mp hrhs, (hP rhs).mp h⟩

theorem isBlank_of_isUpper (h : c.isUpper = true) : Text.isBlank c = false := by
  unfold Char.isUpper at h
  rw [decide_eq_true_eq, ge_iff_le, UInt32.le_iff_toNat_le, UInt32.le_iff_toNat_le] at h
  have hlow : 65 ≤ c.toNat := h.1
  have hhigh : c.toNat ≤ 90 := h.2
  unfold Text.isBlank Text.blankRanges
  simp only [List.any_eq_false, List.forall_mem_cons, Bool.and_eq_true, decide_eq_true_eq]
  refine ⟨?_, ?_, ?_, ?_, ?_, ?_, ?_, ?_, ?_, ?_, nofun⟩ <;> omega

theorem exists_isUpper_iff :
    (∃ r, r ∈ b.rules ∧ c ∈ r.2 ∧ c.isUpper = true) ↔
      ∃ A cs, cs ∈ (b.rightHandSides A).map Text.eraseBlanks ∧ c ∈ cs ∧ c.isUpper = true := by
  apply exists_mem_rules_iff (P := fun rhs => c ∈ rhs ∧ c.isUpper = true)
  intro rhs
  rw [Text.mem_eraseBlanks, and_assoc]
  apply and_congr_right
  intro _
  exact and_iff_right_of_imp isBlank_of_isUpper

theorem exists_mem_letters_iff :
    (∃ r, r ∈ b.rules ∧ c ∈ Production.letters r.2) ↔
      ∃ A cs, cs ∈ (b.rightHandSides A).map Text.eraseBlanks ∧ c ∈ Production.letters cs := by
  apply exists_mem_rules_iff (P := fun rhs => c ∈ Production.letters rhs)
  intro rhs
  rw [Production.letters_eraseBlanks]

theorem exists_fst_eq_iff :
    (∃ r, r ∈ b.rules ∧ r.1 = c) ↔ (b.rightHandSides c).map Text.eraseBlanks ≠ [] := by
  rw [ne_eq, List.map_eq_nil_iff]
  unfold rightHandSides
  simp

theorem build_congr (hstart : a.start = b.start) (hdepth : a.maxDepth = b.maxDepth)
    (h : ∀ A, (a.rightHandSides A).map Text.eraseBlanks =
      (b.rightHandSides A).map Text.eraseBlanks) : a.build = b.build := by
  have hnonTerminals : a.nonTerminals = b.nonTerminals := by
    apply FinSet.ext
    intro c
    rw [mem_nonTerminals, mem_nonTerminals, exists_fst_eq_iff, exists_fst_eq_iff,
      exists_isUpper_iff, exists_isUpper_iff, hstart]
    simp only [h]
  have hterminals : a.terminals = b.terminals := by
    apply FinSet.ext
    intro c
    rw [mem_terminals, mem_terminals, exists_mem_letters_iff, exists_mem_letters_iff,
      hnonTerminals]
    simp only [h]
  have hproductions : grouped a.productions = grouped b.productions := by
    have hparse (names : FinSet Char) :
        Production.parse names = Production.parse names ∘ Text.eraseBlanks := by
      funext rhs
      exact Production.parse_eraseBlanks.symm
    apply FinMap.ext
    intro A
    have hnil : a.rightHandSides A = [] ↔ b.rightHandSides A = [] := by
      rw [← List.map_eq_nil_iff (f := Text.eraseBlanks), h A, List.map_eq_nil_iff]
    rw [get?_grouped_productions, get?_grouped_productions, hnonTerminals, hparse,
      ← List.map_map, ← List.map_map, h A]
    simp only [hnil]
  unfold build
  rw [hnonTerminals, hterminals, hproductions, hstart, hdepth]

end Congruence

/--
The builder infers grammars whose parts agree with each other. It refuses rules only if they use
`ε` as a symbol, and then it does. Otherwise every rule is there, in the order for its left-hand
side, and each of its characters but blanks is the non-terminal or the terminal that the rules make
of it.
-/
theorem build_eq (b : Builder) :
    (∀ e, b.build = .error e ↔ e = .reservedSymbol epsilon ∧ b.UsesEpsilon) ∧
      (¬ b.UsesEpsilon → ∃ g, b.build = .ok g ∧ g.IsValid ∧ g.start = b.start ∧
        g.maxDepth = b.maxDepth ∧
        (∀ c, c ∈ g.nonTerminals ↔ c = b.start ∨ (∃ r, r ∈ b.rules ∧ r.1 = c) ∨
          ∃ r, r ∈ b.rules ∧ c ∈ r.2 ∧ c.isUpper = true) ∧
        (∀ c, c ∈ g.terminals ↔ (∃ r, r ∈ b.rules ∧ Text.trim r.2 ≠ [epsilon] ∧ c ∈ r.2 ∧
          Text.isBlank c = false) ∧ ¬ c ∈ g.nonTerminals) ∧
        (∀ A, A ∈ g.productions.keys ↔ ∃ r, r ∈ b.rules ∧ r.1 = A) ∧
        ∀ A, g.productionsFor A = (b.rightHandSides A).map fun rhs =>
          ⟨(Production.letters rhs).map (Production.tag g.nonTerminals)⟩) := by
  refine ⟨?_, ?_⟩
  · intro e
    by_cases h : b.UsesEpsilon
    · rw [build_of_usesEpsilon h, Except.error.injEq, and_iff_left h, eq_comm]
    · rw [build_of_not_usesEpsilon h]
      exact iff_of_false nofun (fun h' => h h'.2)
  · intro h
    refine ⟨b.inferred, build_of_not_usesEpsilon h, isValid_inferred h, rfl, rfl,
      fun c => mem_nonTerminals, ?_, fun A => mem_keys_inferred, ?_⟩
    · intro c
      simp only [← Production.mem_letters]
      exact mem_terminals
    · intro A
      rw [productionsFor_inferred]
      apply List.map_congr_left
      intro rhs _
      exact Production.parse_eq

def undeclared : Builder :=
  (({ start := 'S' } : Builder).addRules 'S' [" a B".toList, "ε ".toList]).addRule 'a' ['c']

theorem build_eq_undeclared :
    (undeclared.addRule 'B' "a ε".toList).build = .error (.reservedSymbol epsilon) ∧
      ¬ undeclared.UsesEpsilon ∧ ∃ g, undeclared.build = .ok g ∧ g.IsValid ∧
        g.productionsFor 'S' = [⟨[.nonTerminal 'a', .nonTerminal 'B']⟩, .epsilon] ∧
        g.productionsFor 'a' = [.letter 'c'] ∧ ¬ 'B' ∈ g.productions.keys ∧ 'c' ∈ g.terminals := by
  have hε : (undeclared.addRule 'B' "a ε".toList).UsesEpsilon := by decide
  have hn : ¬ undeclared.UsesEpsilon := by decide
  rcases (build_eq undeclared).2 hn with
    ⟨g, hbuild, hvalid, _, _, hnonTerminals, hterminals, hkeys, hproductions⟩
  have ha : 'a' ∈ g.nonTerminals := (hnonTerminals 'a').mpr (by decide)
  have hB : 'B' ∈ g.nonTerminals := (hnonTerminals 'B').mpr (by decide)
  have hc : ¬ 'c' ∈ g.nonTerminals := fun h => absurd ((hnonTerminals 'c').mp h) (by decide)
  refine ⟨((build_eq _).1 _).mpr ⟨rfl, hε⟩, hn, g, hbuild, hvalid, ?_, ?_, ?_, ?_⟩
  · have hrules : undeclared.rightHandSides 'S' = [['a', ' ', 'B'], ['ε']] := by decide
    have hfirst : Production.letters ['a', ' ', 'B'] = ['a', 'B'] := by decide
    have hsecond : Production.letters ['ε'] = [] := by decide
    rw [hproductions, hrules]
    simp [hfirst, hsecond, Production.tag, Production.epsilon, ha, hB]
  · have hrules : undeclared.rightHandSides 'a' = [['c']] := by decide
    have hletters : Production.letters ['c'] = ['c'] := by decide
    rw [hproductions, hrules]
    simp [hletters, Production.tag, Production.letter, hc]
  · intro h
    exact absurd ((hkeys 'B').mp h) (by decide)
  · exact (hterminals 'c').mpr ⟨by decide, hc⟩

end Builder

end Grammar

end RegLang
