import Mathlib.Data.List.Forall2
import RegLang.Grammar.RuleText
import RegLang.Proofs.Text.Blank

/-!
This module contains what the reader of rule text accepts: which lines are rules, what is wrong with
a line that is none, and what becomes of a whole text. The first line that should be a rule and is
none decides; without such a line the rules go to the builder in order.
-/

namespace RegLang

namespace Grammar

namespace RuleText

variable {line cs rest : List Char} {lines : List (List Char)} {lhs : Char} {r : Rule}
  {rules : List Rule} {number : Nat}

def IsSkipped (line : List Char) : Prop := line = [] ∨ ['#'] <+: line

instance (line : List Char) : Decidable (IsSkipped line) := inferInstanceAs (Decidable (_ ∨ _))

def Divides (line : List Char) (lhs : Char) (rest : List Char) : Prop :=
  Text.isBlank lhs = false ∧ ∃ blanks arrow, (∀ c, c ∈ blanks → Text.isBlank c = true) ∧
    (arrow = ['-', '>'] ∨ arrow = ['→']) ∧ line = lhs :: (blanks ++ (arrow ++ rest))

/--
Whether a trimmed line writes a rule: the pieces between the bars of its rest are the alternatives,
and no piece is empty unless it is the only one.
-/
def Writes (line : List Char) (r : Rule) : Prop :=
  ∃ rest, Divides line r.lhs rest ∧ r.alternatives = (rest.splitOn '|').map Text.trim ∧
    ((∀ piece, piece ∈ r.alternatives → piece ≠ []) ∨ r.alternatives.length = 1)

inductive IsProblem (number : Nat) (line : List Char) : Error → Prop where
  | malformed : (∀ lhs rest, ¬ Divides line lhs rest) →
    IsProblem number line (.malformedRule number (String.ofList line))
  | emptyAlternative {lhs : Char} {rest : List Char} : Divides line lhs rest →
    [] ∈ (rest.splitOn '|').map Text.trim →
      IsProblem number line (.emptyAlternative number (String.ofList line))

theorem IsProblem.exists_message {e : Error} (h : IsProblem number line e) :
    ∃ detail, e.message = s!"Parse error: line {number}: " ++ detail := by
  cases h with
  | malformed => exact ⟨String.ofList line, rfl⟩
  | emptyAlternative =>
    have hcut : ": empty alternative in '" = ": " ++ "empty alternative in '" := rfl
    refine ⟨"empty alternative in '" ++ String.ofList line ++
      "' (write ε for the empty string)", ?_⟩
    unfold Error.message
    simp only [hcut, String.append_assoc]
    rfl

theorem isSkipped_iff : isSkipped line = true ↔ IsSkipped line := by
  unfold IsSkipped
  cases line with
  | nil => exact iff_of_true rfl (.inl rfl)
  | cons c cs =>
    unfold isSkipped
    rw [beq_iff_eq, List.cons_prefix_cons]
    simp [eq_comm (a := c)]

section Line

theorem afterArrow?_eq_some_iff :
    afterArrow? cs = some rest ↔
      ∃ arrow, (arrow = ['-', '>'] ∨ arrow = ['→']) ∧ cs = arrow ++ rest := by
  constructor
  · intro h
    unfold afterArrow? at h
    split at h
    · cases h
      exact ⟨['-', '>'], .inl rfl, rfl⟩
    · cases h
      exact ⟨['→'], .inr rfl, rfl⟩
    · cases h
  · rintro ⟨arrow, rfl | rfl, rfl⟩
    · rfl
    · rfl

theorem divides_cons_iff {c : Char} :
    Divides (c :: cs) lhs rest ↔
      c = lhs ∧ Text.isBlank lhs = false ∧ afterArrow? (Text.trimLeft cs) = some rest := by
  unfold Divides
  constructor
  · rintro ⟨hlhs, blanks, arrow, hblanks, harrow, h⟩
    cases h
    refine ⟨rfl, hlhs, ?_⟩
    rw [Text.trimLeft_append hblanks, afterArrow?_eq_some_iff]
    refine ⟨arrow, harrow, ?_⟩
    rcases harrow with harrow | harrow
    · rw [harrow]
      exact Text.trimLeft_cons rfl
    · rw [harrow]
      exact Text.trimLeft_cons rfl
  · rintro ⟨rfl, hlhs, h⟩
    rcases afterArrow?_eq_some_iff.mp h with ⟨arrow, harrow, hcs⟩
    rcases Text.exists_append_trimLeft cs with ⟨blanks, happend, hblanks⟩
    rw [hcs] at happend
    exact ⟨hlhs, blanks, arrow, hblanks, harrow, by rw [happend]⟩

theorem readRule_of_writes (h : Writes line r) : readRule number line = .ok r := by
  rcases h with ⟨rest, hdivides, hpieces, hlength⟩
  cases line with
  | nil =>
    rcases hdivides with ⟨_, _, _, _, _, h⟩
    cases h
  | cons c cs =>
    rcases divides_cons_iff.mp hdivides with ⟨hc, _, harrow⟩
    unfold readRule
    simp only [harrow]
    unfold RuleText.alternatives
    rw [← hpieces, if_neg, hc]
    rintro ⟨hlong, hempty⟩
    rcases hlength with hfull | hone
    · exact hfull [] hempty rfl
    · omega

theorem exists_readRule_of_not_writes (number : Nat) (hne : line ≠ [])
    (hblank : ∀ c cs, line = c :: cs → Text.isBlank c = false) (h : ∀ r, ¬ Writes line r) :
    ∃ e, readRule number line = .error e ∧ IsProblem number line e := by
  cases line with
  | nil => contradiction
  | cons c cs =>
    unfold readRule
    dsimp only
    split
    · rename_i harrow
      refine ⟨_, rfl, .malformed ?_⟩
      intro lhs rest hdivides
      rw [(divides_cons_iff.mp hdivides).2.2] at harrow
      cases harrow
    · rename_i rest harrow
      have hdivides : Divides (c :: cs) c rest :=
        divides_cons_iff.mpr ⟨rfl, hblank c cs rfl, harrow⟩
      split
      · rename_i hempty
        exact ⟨_, rfl, .emptyAlternative hdivides hempty.2⟩
      · rename_i hpieces
        refine absurd ⟨rest, hdivides, rfl, ?_⟩ (h ⟨c, alternatives rest⟩)
        by_cases hempty : [] ∈ alternatives rest
        · have hlength := List.length_pos_of_mem hempty
          have hshort : ¬ 1 < (alternatives rest).length := fun hlong => hpieces ⟨hlong, hempty⟩
          exact .inr (Nat.le_antisymm (Nat.le_of_not_lt hshort) hlength)
        · left
          intro piece hpiece e
          exact hempty (e ▸ hpiece)

end Line

section Lines

def ruleLines (lines : List (List Char)) : List (List Char) :=
  (lines.map Text.trim).filter fun line => ¬ IsSkipped line

theorem readLines_cons_of_isSkipped (h : IsSkipped (Text.trim line)) :
    readLines number (line :: lines) = readLines (number + 1) lines := by
  conv => lhs; unfold readLines
  exact if_pos (isSkipped_iff.mpr h)

theorem readLines_cons_of_ok (hs : ¬ IsSkipped (Text.trim line))
    (h : readRule number (Text.trim line) = .ok r) :
    readLines number (line :: lines) = (readLines (number + 1) lines).map (r :: ·) := by
  conv => lhs; unfold readLines
  rw [if_neg (isSkipped_iff.not.mpr hs), h]
  cases readLines (number + 1) lines <;> rfl

theorem readLines_cons_of_error {e : Error} (hs : ¬ IsSkipped (Text.trim line))
    (h : readRule number (Text.trim line) = .error e) :
    readLines number (line :: lines) = .error e := by
  unfold readLines
  rw [if_neg (isSkipped_iff.not.mpr hs), h]
  rfl

theorem ruleLines_cons_of_isSkipped (h : IsSkipped (Text.trim line)) :
    ruleLines (line :: lines) = ruleLines lines := by
  unfold ruleLines
  exact List.filter_cons_of_neg (by simpa using h)

theorem ruleLines_cons_of_not_isSkipped (h : ¬ IsSkipped (Text.trim line)) :
    ruleLines (line :: lines) = Text.trim line :: ruleLines lines := by
  unfold ruleLines
  exact List.filter_cons_of_pos (by simpa using h)

theorem readLines_of_forall₂_writes (h : List.Forall₂ Writes (ruleLines lines) rules) :
    readLines number lines = .ok rules := by
  induction lines generalizing number rules with
  | nil =>
    cases h
    rfl
  | cons line lines ih =>
    by_cases hs : IsSkipped (Text.trim line)
    · rw [ruleLines_cons_of_isSkipped hs] at h
      rw [readLines_cons_of_isSkipped hs, ih h]
    · rw [ruleLines_cons_of_not_isSkipped hs] at h
      cases h with
      | cons hline h =>
        rw [readLines_cons_of_ok hs (readRule_of_writes hline), ih h]
        rfl

theorem readLines_append_cons_of_error {before after : List (List Char)} {e : Error}
    (hbefore : ∀ l, l ∈ before → IsSkipped (Text.trim l) ∨ ∃ r, Writes (Text.trim l) r)
    (hs : ¬ IsSkipped (Text.trim line))
    (h : readRule (number + before.length) (Text.trim line) = .error e) :
    readLines number (before ++ line :: after) = .error e := by
  induction before generalizing number with
  | nil => exact readLines_cons_of_error hs h
  | cons l before ih =>
    have hrest : readLines (number + 1) (before ++ line :: after) = .error e := by
      apply ih
      · intro l' hl'
        exact hbefore l' (List.mem_cons_of_mem l hl')
      · rw [Nat.add_right_comm]
        exact h
    rw [List.cons_append]
    by_cases hl : IsSkipped (Text.trim l)
    · rw [readLines_cons_of_isSkipped hl, hrest]
    · rcases (hbefore l List.mem_cons_self).resolve_left hl with ⟨r, hr⟩
      rw [readLines_cons_of_ok hl (readRule_of_writes hr), hrest]
      rfl

end Lines

section Build

def pieces (rules : List Rule) : List (Char × List Char) :=
  rules.flatMap fun r => r.alternatives.map (r.lhs, ·)

def feed (b : Builder) (pieces : List (Char × List Char)) : Builder :=
  pieces.foldl (fun b p => b.addRule p.1 p.2) b

theorem addRules_eq_feed (b : Builder) (lhs : Char) (alternatives : List (List Char)) :
    b.addRules lhs alternatives = feed b (alternatives.map (lhs, ·)) := by
  induction alternatives generalizing b with
  | nil =>
    unfold Builder.addRules
    rw [List.map_nil, List.append_nil]
    rfl
  | cons rhs alternatives ih =>
    unfold feed at ih ⊢
    rw [List.map_cons, List.foldl_cons, ← ih]
    simp [Builder.addRules, Builder.addRule]

theorem foldl_addRules (b : Builder) (rules : List Rule) :
    rules.foldl (fun b r => b.addRules r.lhs r.alternatives) b = feed b (pieces rules) := by
  induction rules generalizing b with
  | nil => rfl
  | cons r rules ih =>
    rw [List.foldl_cons, ih, addRules_eq_feed]
    unfold feed pieces
    rw [List.flatMap_cons, List.foldl_append]

theorem builder?_cons (r : Rule) (rules : List Rule) :
    builder? (r :: rules) = some (feed { start := r.lhs } (pieces (r :: rules))) :=
  congrArg some (foldl_addRules _ _)

end Build

end RuleText

open RuleText

/--
What becomes of a rule text. If a line that is neither blank nor a comment writes no rule, the first
such line is reported with its number; if there is no other line than blank ones and comments, the
lack of rules is reported; otherwise the grammar is the one that the builder makes of all pieces in
order, with the first left-hand side as the start symbol.
-/
theorem ofRuleText_eq (text : List Char) :
    (∀ before line after, text.splitOn '\n' = before ++ line :: after →
      (∀ l, l ∈ before → IsSkipped (Text.trim l) ∨ ∃ r, Writes (Text.trim l) r) →
      ¬ IsSkipped (Text.trim line) → (∀ r, ¬ Writes (Text.trim line) r) →
        ∃ e detail, ofRuleText text = .error e ∧
          IsProblem (before.length + 1) (Text.trim line) e ∧
          e.message = s!"Parse error: line {before.length + 1}: " ++ detail) ∧
      (ruleLines (text.splitOn '\n') = [] → ofRuleText text = .error .noRules) ∧
      ∀ first rules, List.Forall₂ Writes (ruleLines (text.splitOn '\n')) (first :: rules) →
        ofRuleText text = (feed { start := first.lhs } (pieces (first :: rules))).build := by
  refine ⟨?_, ?_, ?_⟩
  · intro before line after htext hbefore hs hline
    have hne : Text.trim line ≠ [] := fun h => hs (.inl h)
    rcases exists_readRule_of_not_writes (1 + before.length) hne
      (fun _ _ => Text.isBlank_of_trim_eq_cons) hline with ⟨e, hread, hproblem⟩
    rw [Nat.add_comm] at hproblem
    rcases hproblem.exists_message with ⟨detail, hmessage⟩
    refine ⟨e, detail, ?_, hproblem, hmessage⟩
    unfold ofRuleText
    rw [htext, readLines_append_cons_of_error hbefore hs hread]
    rfl
  · intro h
    have hread : readLines 1 (text.splitOn '\n') = .ok [] := by
      apply readLines_of_forall₂_writes
      rw [h]
      exact .nil
    unfold ofRuleText
    rw [hread]
    rfl
  · intro first rules h
    unfold ofRuleText
    rw [readLines_of_forall₂_writes h]
    dsimp only [Except.bind, bind]
    rw [builder?_cons]

theorem not_writes_of_missing_alternative (r : Rule) :
    ¬ Writes ['S', '-', '>', 'a', '|'] r := by
  rintro ⟨rest, hdivides, hpieces, h⟩
  cases (divides_cons_iff.mp hdivides).2.2
  rw [hpieces] at h
  revert h
  decide

theorem ofRuleText_eq_misplaced_arrow_and_missing_alternative :
    (∃ e detail, ofRuleText "# a\n\tS->a|\nS".toList = .error e ∧
        IsProblem 2 ['S', '-', '>', 'a', '|'] e ∧
        e.message = s!"Parse error: line {2}: " ++ detail) ∧
      ofRuleText "\n \r\n#S->a".toList = .error .noRules ∧
      ofRuleText "-->aA|ε\n# A->a\nA →  b \n".toList =
        (feed { start := '-' } [('-', ['a', 'A']), ('-', ['ε']), ('A', ['b'])]).build := by
  refine ⟨?_, ?_, ?_⟩
  · apply (ofRuleText_eq "# a\n\tS->a|\nS".toList).1 [['#', ' ', 'a']]
      ['\t', 'S', '-', '>', 'a', '|'] [['S']] rfl
    · intro l hl
      rw [List.mem_singleton.mp hl]
      exact .inl (by decide)
    · decide
    · exact not_writes_of_missing_alternative
  · exact (ofRuleText_eq "\n \r\n#S->a".toList).2.1 (by decide)
  · have hlines : ruleLines ("-->aA|ε\n# A->a\nA →  b \n".toList.splitOn '\n') =
        [['-', '-', '>', 'a', 'A', '|', 'ε'], ['A', ' ', '→', ' ', ' ', 'b']] := by
      decide
    have hspace : ∀ c, c ∈ [' '] → Text.isBlank c = true := by
      intro c hc
      rw [List.mem_singleton.mp hc]
      rfl
    apply (ofRuleText_eq "-->aA|ε\n# A->a\nA →  b \n".toList).2.2
      ⟨'-', [['a', 'A'], ['ε']]⟩ [⟨'A', [['b']]⟩]
    rw [hlines]
    apply List.Forall₂.cons
    · exact ⟨['a', 'A', '|', 'ε'], ⟨rfl, [], ['-', '>'], nofun, .inl rfl, rfl⟩, by decide,
        .inl (by decide)⟩
    apply List.Forall₂.cons
    · exact ⟨[' ', ' ', 'b'], ⟨rfl, [' '], ['→'], hspace, .inr rfl, rfl⟩, by decide,
        .inl (by decide)⟩
    apply List.Forall₂.nil

end Grammar

end RegLang
