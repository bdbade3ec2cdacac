import RegLang.Proofs.Grammar.Builder
import RegLang.Proofs.Grammar.RuleText

/-!
This module contains what the lines of a rule text say: the alternatives of the rules without blanks,
in order. What a rule line says can be read off the line without blanks, and what becomes of a whole
text depends only on what its lines say.
-/

namespace RegLang

namespace Grammar

namespace RuleText

variable {line line' cs ds head arrow rest : List Char} {lines lines' : List (List Char)}
  {lhs : Char} {b : Builder} {A : Char} {ps qs : List (Char × List Char)}

section Meaning

/--
What a line says: left-hand sides with one alternative each, without blanks.
-/
inductive LineSays (line : List Char) : List (Char × List Char) → Prop where
  | skipped : IsSkipped (Text.trim line) → LineSays line []
  | rule {r : Rule} : ¬ IsSkipped (Text.trim line) → Writes (Text.trim line) r →
    LineSays line (r.alternatives.map fun rhs => (r.lhs, Text.eraseBlanks rhs))

inductive Says : List (List Char) → List (Char × List Char) → Prop where
  | nil : Says [] []
  | cons {line : List Char} {lines : List (List Char)} {ps qs : List (Char × List Char)} :
    LineSays line ps → Says lines qs → Says (line :: lines) (ps ++ qs)

theorem says_append_iff :
    Says (lines ++ lines') ps ↔ ∃ qs rs, Says lines qs ∧ Says lines' rs ∧ qs ++ rs = ps := by
  induction lines generalizing ps with
  | nil =>
    constructor
    · intro h
      exact ⟨[], ps, .nil, h, rfl⟩
    · rintro ⟨qs, rs, hqs, hrs, rfl⟩
      cases hqs
      exact hrs
  | cons line lines ih =>
    constructor
    · intro h
      cases h with
      | cons hline h =>
        rcases ih.mp h with ⟨qs, rs, hqs, hrs, rfl⟩
        exact ⟨_, rs, .cons hline hqs, hrs, List.append_assoc ..⟩
    · rintro ⟨qs, rs, hqs, hrs, rfl⟩
      cases hqs with
      | cons hline h =>
        rw [List.append_assoc]
        exact .cons hline (ih.mpr ⟨_, rs, h, hrs, rfl⟩)

theorem says_singleton_iff : Says [line] ps ↔ LineSays line ps := by
  constructor
  · intro h
    cases h with
    | cons hline h =>
      cases h
      rw [List.append_nil]
      exact hline
  · intro h
    rw [← List.append_nil ps]
    exact .cons h .nil

theorem lineSays_iff_of_isSkipped (h : IsSkipped (Text.trim line)) :
    LineSays line ps ↔ ps = [] := by
  constructor
  · intro hline
    cases hline with
    | skipped => rfl
    | rule hn => exact absurd h hn
  · rintro rfl
    exact .skipped h

theorem says_iff_of_isSkipped (h : ∀ line, line ∈ lines → IsSkipped (Text.trim line)) :
    Says lines ps ↔ ps = [] := by
  induction lines generalizing ps with
  | nil =>
    constructor
    · intro hs
      cases hs
      rfl
    · rintro rfl
      exact .nil
  | cons line lines ih =>
    rw [List.forall_mem_cons] at h
    constructor
    · intro hs
      cases hs with
      | cons hline hs =>
        rw [(lineSays_iff_of_isSkipped h.1).mp hline, (ih h.2).mp hs]
        rfl
    · rintro rfl
      exact .cons ((lineSays_iff_of_isSkipped h.1).mpr rfl) ((ih h.2).mpr rfl)

theorem LineSays.congr (hs : LineSays line ps) (h : Text.trim line = Text.trim line') :
    LineSays line' ps := by
  cases hs with
  | skipped hs => exact .skipped (h ▸ hs)
  | rule hn hwrites => exact .rule (h ▸ hn) (h ▸ hwrites)

theorem Writes.alternatives_ne_nil {r : Rule} (h : Writes line r) : r.alternatives ≠ [] := by
  rcases h with ⟨rest, _, h, _⟩
  rw [h, ne_eq, List.map_eq_nil_iff]
  exact List.splitOn_ne_nil '|' rest

theorem Says.ne_nil (hs : Says lines ps) (h : ruleLines lines ≠ []) : ps ≠ [] := by
  induction hs with
  | nil => exact absurd rfl h
  | cons hline _ ih =>
    cases hline with
    | skipped hs =>
      rw [ruleLines_cons_of_isSkipped hs] at h
      exact ih h
    | rule _ hwrites =>
      apply List.append_ne_nil_of_left_ne_nil
      rw [ne_eq, List.map_eq_nil_iff]
      exact hwrites.alternatives_ne_nil

theorem exists_meaning (h : ∀ line, line ∈ ruleLines lines → ∃ r, Writes line r) :
    ∃ ps, Says lines ps := by
  induction lines with
  | nil => exact ⟨[], .nil⟩
  | cons line lines ih =>
    by_cases hs : IsSkipped (Text.trim line)
    · rw [ruleLines_cons_of_isSkipped hs] at h
      rcases ih h with ⟨ps, hps⟩
      exact ⟨_, .cons (.skipped hs) hps⟩
    · rw [ruleLines_cons_of_not_isSkipped hs, List.forall_mem_cons] at h
      rcases h.1 with ⟨r, hr⟩
      rcases ih h.2 with ⟨ps, hps⟩
      exact ⟨_, .cons (.rule hs hr) hps⟩

end Meaning

section RuleLine

def IsArrow (arrow : List Char) : Prop := arrow = ['-', '>'] ∨ arrow = ['→']

theorem Divides.unique {lhs' : Char} {rest' : List Char} (h : Divides line lhs rest)
    (h' : Divides line lhs' rest') : lhs' = lhs ∧ rest' = rest := by
  cases line with
  | nil =>
    rcases h with ⟨_, _, _, _, _, h⟩
    cases h
  | cons c cs =>
    rcases divides_cons_iff.mp h with ⟨rfl, _, h⟩
    rcases divides_cons_iff.mp h' with ⟨rfl, _, h'⟩
    rw [h] at h'
    cases h'
    exact ⟨rfl, rfl⟩

theorem divides_trim (hhead : Text.eraseBlanks head = [lhs]) (harrow : IsArrow arrow) :
    Divides (Text.trim (head ++ (arrow ++ rest))) lhs (Text.trimRight rest) := by
  rcases Text.eraseBlanks_eq_singleton_iff.mp hhead with ⟨hlhs, before, after, rfl, hbefore, hafter⟩
  refine ⟨hlhs, after, arrow, hafter, harrow, ?_⟩
  rw [List.append_assoc, List.cons_append, Text.trim_append_cons hbefore hlhs]
  rcases harrow with rfl | rfl
  -- The blanks at the end of the line are those behind the arrow, for it ends with no blank.
  · rw [List.cons_append, List.cons_append, Text.trimRight_append_cons rfl, Text.trimRight_cons rfl]
    rfl
  · rw [List.cons_append, Text.trimRight_append_cons rfl]
    rfl

theorem Divides.isSkipped_iff (h : Divides line lhs rest) : IsSkipped line ↔ lhs = '#' := by
  rcases h with ⟨_, _, _, _, _, rfl⟩
  unfold IsSkipped
  rw [List.cons_prefix_cons]
  simp [eq_comm]

theorem map_eraseBlanks_alternatives :
    (alternatives (Text.trimRight rest)).map Text.eraseBlanks =
      (Text.eraseBlanks rest).splitOn '|' := by
  have htrim : Text.eraseBlanks ∘ Text.trim = Text.eraseBlanks := by
    funext cs
    exact Text.eraseBlanks_trim
  unfold alternatives
  rw [List.map_map, htrim, Text.map_eraseBlanks_splitOn rfl, Text.eraseBlanks_trimRight]

theorem nil_mem_alternatives_iff :
    [] ∈ alternatives (Text.trimRight rest) ↔ [] ∈ (Text.eraseBlanks rest).splitOn '|' := by
  rw [← map_eraseBlanks_alternatives]
  unfold alternatives
  simp [Text.trim_eq_nil_iff, Text.eraseBlanks_trim]

def RuleSays (lhs : Char) (rest : List Char) (ps : List (Char × List Char)) : Prop :=
  if lhs = '#' then ps = []
  else (¬ [] ∈ rest.splitOn '|' ∨ (rest.splitOn '|').length = 1) ∧
    ps = (rest.splitOn '|').map (lhs, ·)

theorem lineSays_iff (hhead : Text.eraseBlanks head = [lhs]) (harrow : IsArrow arrow) :
    LineSays (head ++ (arrow ++ rest)) ps ↔ RuleSays lhs (Text.eraseBlanks rest) ps := by
  have hdivides : Divides (Text.trim (head ++ (arrow ++ rest))) lhs (Text.trimRight rest) :=
    divides_trim hhead harrow
  have hmap : (alternatives (Text.trimRight rest)).map (fun rhs => (lhs, Text.eraseBlanks rhs)) =
      ((Text.eraseBlanks rest).splitOn '|').map (lhs, ·) := by
    rw [← map_eraseBlanks_alternatives, List.map_map]
    rfl
  have hlength : (alternatives (Text.trimRight rest)).length =
      ((Text.eraseBlanks rest).splitOn '|').length := by
    rw [← map_eraseBlanks_alternatives, List.length_map]
  unfold RuleSays
  split
  · next h => exact lineSays_iff_of_isSkipped (hdivides.isSkipped_iff.mpr h)
  · next h =>
    have hs := hdivides.isSkipped_iff.not.mpr h
    rw [← nil_mem_alternatives_iff, ← hlength, ← hmap]
    constructor
    · intro hline
      cases hline with
      | skipped hs' => exact absurd hs' hs
      | @rule r _ hwrites =>
        rcases hwrites with ⟨rest', hdivides', halternatives, hfull⟩
        rcases hdivides.unique hdivides' with ⟨hlhs, rfl⟩
        have halternatives : r.alternatives = alternatives (Text.trimRight rest) := halternatives
        rw [halternatives] at hfull ⊢
        rw [hlhs]
        exact ⟨hfull.imp_left fun hne hnil => hne [] hnil rfl, rfl⟩
    · rintro ⟨hfull, rfl⟩
      refine LineSays.rule (r := ⟨lhs, alternatives (Text.trimRight rest)⟩) hs
        ⟨_, hdivides, rfl, hfull.imp_left ?_⟩
      intro hnil piece hpiece e
      exact hnil (e ▸ hpiece)

theorem ruleSays_append (h : RuleSays lhs (cs ++ '|' :: ds) ps) :
    ∃ qs rs, RuleSays lhs cs qs ∧ RuleSays lhs ds rs ∧ qs ++ rs = ps := by
  unfold RuleSays at h ⊢
  split at h
  · next hlhs =>
    simp only [if_pos hlhs]
    exact ⟨[], [], rfl, rfl, h.symm⟩
  · next hlhs =>
    simp only [if_neg hlhs]
    rw [List.splitOn_append_cons_self] at h
    rcases h with ⟨hfull, rfl⟩
    have hcs := List.length_pos_of_ne_nil (List.splitOn_ne_nil '|' cs)
    have hds := List.length_pos_of_ne_nil (List.splitOn_ne_nil '|' ds)
    -- With a bar there are several alternatives, so that none of them is empty.
    have hnil : ¬ [] ∈ cs.splitOn '|' ++ ds.splitOn '|' := by
      apply hfull.resolve_right
      rw [List.length_append]
      omega
    rw [List.mem_append, not_or] at hnil
    exact ⟨_, _, ⟨.inl hnil.1, rfl⟩, ⟨.inl hnil.2, rfl⟩, List.map_append.symm⟩

theorem filter_eq_nil_of_ruleSays (h : RuleSays lhs cs ps) (hA : A ≠ lhs) :
    (ps.filter fun p => p.1 = A) = [] := by
  unfold RuleSays at h
  split at h
  · rw [h]
    rfl
  · rw [h.2]
    simp [hA.symm]

end RuleLine

section Reading

def outcome : List (Char × List Char) → Except Error Grammar
  | [] => .error .noRules
  | p :: ps => (feed { start := p.1 } (p :: ps)).build

theorem outcome_cons (p : Char × List Char) (ps : List (Char × List Char)) :
    outcome (p :: ps) = (feed { start := p.1 } (p :: ps)).build := rfl

theorem feed_eq :
    feed b ps = { b with rules := b.rules ++ ps.map fun p => (p.1, Text.trim p.2) } := by
  induction ps generalizing b with
  | nil =>
    rw [List.map_nil, List.append_nil]
    rfl
  | cons p ps ih =>
    have hcons : feed b (p :: ps) = feed (b.addRule p.1 p.2) ps := rfl
    rw [hcons, ih]
    simp [Builder.addRule]

theorem map_rightHandSides_feed :
    ((feed { start := lhs } ps).rightHandSides A).map Text.eraseBlanks =
      (ps.filter fun p => p.1 = A).map fun p => Text.eraseBlanks p.2 := by
  rw [feed_eq]
  unfold Builder.rightHandSides
  rw [List.nil_append, List.filter_map, List.map_map, List.map_map]
  apply List.map_congr_left
  intro p _
  exact Text.eraseBlanks_trim

theorem build_feed_congr
    (h : ∀ A, ((ps.filter fun p => p.1 = A).map fun p => Text.eraseBlanks p.2) =
      (qs.filter fun p => p.1 = A).map fun p => Text.eraseBlanks p.2) :
    (feed { start := lhs } ps).build = (feed { start := lhs } qs).build := by
  apply Builder.build_congr
  · rw [feed_eq, feed_eq]
  · rw [feed_eq, feed_eq]
  · intro A
    rw [map_rightHandSides_feed, map_rightHandSides_feed, h A]

theorem exists_readLines (h : Says lines ps) (number : Nat) :
    ∃ rules, readLines number lines = .ok rules ∧
      rules.head?.map Rule.lhs = ps.head?.map Prod.fst ∧
      (pieces rules).map (fun p => (p.1, Text.eraseBlanks p.2)) = ps := by
  induction h generalizing number with
  | nil => exact ⟨[], rfl, rfl, rfl⟩
  | cons hline _ ih =>
    rcases ih (number + 1) with ⟨rules, hread, hhead, hpieces⟩
    cases hline with
    | skipped hs => exact ⟨rules, (readLines_cons_of_isSkipped hs).trans hread, hhead, hpieces⟩
    | @rule r hn hwrites =>
      refine ⟨r :: rules, ?_, ?_, ?_⟩
      · rw [readLines_cons_of_ok hn (readRule_of_writes hwrites), hread]
        rfl
      · cases h : r.alternatives with
        | nil => exact absurd h hwrites.alternatives_ne_nil
        | cons rhs rest => rfl
      · rw [← hpieces]
        unfold pieces
        rw [List.flatMap_cons, List.map_append, List.map_map]
        rfl

theorem ofRuleText_eq_outcome {text : List Char} (h : Says (text.splitOn '\n') ps) :
    ofRuleText text = outcome ps := by
  rcases exists_readLines h 1 with ⟨rules, hread, hhead, hpieces⟩
  unfold ofRuleText
  rw [hread]
  cases rules with
  | nil =>
    rw [← hpieces]
    rfl
  | cons r rules =>
    cases ps with
    | nil => cases hhead
    | cons p ps =>
      have hstart : r.lhs = p.1 := Option.some.inj hhead
      dsimp only [Except.bind, bind]
      rw [builder?_cons, outcome_cons, hstart]
      apply build_feed_congr
      intro A
      rw [← hpieces, List.filter_map, List.map_map]
      apply List.map_congr_left
      intro p _
      exact Text.eraseBlanks_eraseBlanks.symm

end Reading

end RuleText

end Grammar

end RegLang
