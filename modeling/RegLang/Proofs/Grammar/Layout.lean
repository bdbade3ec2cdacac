import Mathlib.Logic.Relation
import RegLang.Proofs.Grammar.Meaning

/-!
This module contains the edits of a rule text that change its layout only. An edit keeps what the
lines say. Only when lines change places is the order another one, but it stays the same for each
left-hand side, and the builder takes notice of nothing else.
-/

namespace RegLang

namespace Grammar

namespace RuleText

variable {cs : List Char} {lines lines' : List (List Char)} {lhs : Char}
  {ps qs rs : List (Char × List Char)}

section Edits

/--
Local changes of the layout: what some lines can be replaced by, wherever they stand. A rule line is
written as its left-hand side with the blanks around it, the arrow and the rest.
-/
inductive Relaid : List (List Char) → List (List Char) → Prop where
  | skipped {lines lines' : List (List Char)} :
    (∀ line, line ∈ lines → IsSkipped (Text.trim line)) →
      (∀ line, line ∈ lines' → IsSkipped (Text.trim line)) → Relaid lines lines'
  | blanks {lhs : Char} {head head' arrow rest rest' : List Char} :
    Text.eraseBlanks head = [lhs] → Text.eraseBlanks head' = [lhs] → IsArrow arrow →
      Text.eraseBlanks rest = Text.eraseBlanks rest' →
        Relaid [head ++ (arrow ++ rest)] [head' ++ (arrow ++ rest')]
  | arrow {lhs : Char} {head arrow arrow' rest : List Char} :
    Text.eraseBlanks head = [lhs] → IsArrow arrow → IsArrow arrow' →
      Relaid [head ++ (arrow ++ rest)] [head ++ (arrow' ++ rest)]
  | carriageReturn (line : List Char) : Relaid [line] [line ++ ['\r']]
  | noCarriageReturn (line : List Char) : Relaid [line ++ ['\r']] [line]
  | split {lhs : Char} {head arrow left right : List Char} :
    Text.eraseBlanks head = [lhs] → IsArrow arrow →
      Relaid [head ++ (arrow ++ (left ++ '|' :: right))]
        [head ++ (arrow ++ left), head ++ (arrow ++ right)]

/--
One edit of the lines of a rule text: a local change, or the exchange of two neighbouring rule lines
with different left-hand sides that both come after the first rule line.
-/
inductive Edit : List (List Char) → List (List Char) → Prop where
  | relaid {lines lines' : List (List Char)} (before after : List (List Char)) :
    Relaid lines lines' → Edit (before ++ (lines ++ after)) (before ++ (lines' ++ after))
  | swapped {before skipped : List (List Char)} {lhs lhs' : Char}
      {head head' arrow arrow' rest rest' : List Char} (after : List (List Char)) :
    Text.eraseBlanks head = [lhs] → IsArrow arrow → Text.eraseBlanks head' = [lhs'] →
      IsArrow arrow' → lhs ≠ lhs' → (∀ line, line ∈ skipped → IsSkipped (Text.trim line)) →
        ruleLines before ≠ [] →
          Edit (before ++ ([head ++ (arrow ++ rest)] ++
              (skipped ++ ([head' ++ (arrow' ++ rest')] ++ after))))
            (before ++ ([head' ++ (arrow' ++ rest')] ++
              (skipped ++ ([head ++ (arrow ++ rest)] ++ after))))

def EditsTo : List Char → List Char → Prop :=
  Relation.ReflTransGen fun text text' => Edit (text.splitOn '\n') (text'.splitOn '\n')

def unlines (lines : List (List Char)) : List Char := ['\n'].intercalate lines

theorem Edit.editsTo (h : Edit lines lines')
    (hlines : lines ≠ [] ∧ ∀ line, line ∈ lines → ¬ '\n' ∈ line)
    (hlines' : lines' ≠ [] ∧ ∀ line, line ∈ lines' → ¬ '\n' ∈ line) :
    EditsTo (unlines lines) (unlines lines') := by
  apply Relation.ReflTransGen.single
  unfold unlines
  rw [List.splitOn_intercalate '\n' hlines.2 hlines.1,
    List.splitOn_intercalate '\n' hlines'.2 hlines'.1]
  exact h

theorem EditsTo.trans {text text' text'' : List Char} (h : EditsTo text text')
    (h' : EditsTo text' text'') : EditsTo text text'' :=
  Relation.ReflTransGen.trans h h'

end Edits

section Effect

structure Alike (ps qs : List (Char × List Char)) : Prop where
  head : ps.head?.map Prod.fst = qs.head?.map Prod.fst
  alternatives : ∀ A, (ps.filter fun p => p.1 = A) = qs.filter fun p => p.1 = A

theorem Alike.refl (ps : List (Char × List Char)) : Alike ps ps := ⟨rfl, fun _ => rfl⟩

theorem Alike.trans (h : Alike ps qs) (h' : Alike qs rs) : Alike ps rs :=
  ⟨h.head.trans h'.head, fun A => (h.alternatives A).trans (h'.alternatives A)⟩

theorem Alike.outcome_eq (h : Alike ps qs) : outcome ps = outcome qs := by
  cases ps with
  | nil =>
    cases qs with
    | nil => rfl
    | cons q qs => cases h.head
  | cons p ps =>
    cases qs with
    | nil => cases h.head
    | cons q qs =>
      have hstart : p.1 = q.1 := Option.some.inj h.head
      rw [outcome_cons, outcome_cons, hstart]
      apply build_feed_congr
      intro A
      rw [h.alternatives A]

theorem Relaid.meaning (h : Relaid lines lines') (hs : Says lines ps) : Says lines' ps := by
  cases h with
  | skipped hskipped hskipped' =>
    rw [says_iff_of_isSkipped hskipped] at hs
    exact (says_iff_of_isSkipped hskipped').mpr hs
  | blanks hhead hhead' harrow hrest =>
    rw [says_singleton_iff, lineSays_iff hhead harrow, hrest] at hs
    rw [says_singleton_iff, lineSays_iff hhead' harrow]
    exact hs
  | arrow hhead harrow harrow' =>
    rw [says_singleton_iff, lineSays_iff hhead harrow] at hs
    rw [says_singleton_iff, lineSays_iff hhead harrow']
    exact hs
  | carriageReturn line =>
    rw [says_singleton_iff] at hs ⊢
    exact hs.congr (Text.trim_append (List.forall_mem_singleton.mpr rfl)).symm
  | noCarriageReturn line =>
    rw [says_singleton_iff] at hs ⊢
    exact hs.congr (Text.trim_append (List.forall_mem_singleton.mpr rfl))
  | split hhead harrow =>
    rw [says_singleton_iff, lineSays_iff hhead harrow, Text.eraseBlanks_append,
      Text.eraseBlanks_cons rfl] at hs
    rcases ruleSays_append hs with ⟨qs, rs, hqs, hrs, rfl⟩
    rw [← lineSays_iff hhead harrow, ← says_singleton_iff] at hqs hrs
    exact says_append_iff.mpr ⟨qs, rs, hqs, hrs, rfl⟩

theorem alike_swap {cs' : List Char} {lhs' : Char} {us vs : List (Char × List Char)} (hus : us ≠ [])
    (hps : RuleSays lhs cs ps) (hqs : RuleSays lhs' cs' qs) (hne : lhs ≠ lhs') :
    Alike (us ++ (ps ++ (qs ++ vs))) (us ++ (qs ++ (ps ++ vs))) := by
  constructor
  · cases us with
    | nil => contradiction
    | cons u us => rfl
  · intro A
    simp only [List.filter_append]
    by_cases hA : A = lhs
    · rw [filter_eq_nil_of_ruleSays hqs (hA ▸ hne)]
      rfl
    · rw [filter_eq_nil_of_ruleSays hps hA]
      rfl

theorem Edit.exists_alike (h : Edit lines lines') (hs : Says lines ps) :
    ∃ qs, Says lines' qs ∧ Alike ps qs := by
  cases h with
  | relaid before after h =>
    rcases says_append_iff.mp hs with ⟨us, _, hus, hbehind, rfl⟩
    rcases says_append_iff.mp hbehind with ⟨ps, vs, hps, hvs, rfl⟩
    refine ⟨us ++ (ps ++ vs), ?_, Alike.refl _⟩
    exact says_append_iff.mpr ⟨us, _, hus, says_append_iff.mpr ⟨ps, vs, h.meaning hps, hvs, rfl⟩, rfl⟩
  | swapped after hhead harrow hhead' harrow' hne hskipped hbefore =>
    rcases says_append_iff.mp hs with ⟨us, _, hus, hbehind, rfl⟩
    rcases says_append_iff.mp hbehind with ⟨ps, _, hps, hbehind', rfl⟩
    rcases says_append_iff.mp hbehind' with ⟨ss, _, hss, hbehind'', rfl⟩
    rcases says_append_iff.mp hbehind'' with ⟨qs, vs, hqs, hvs, rfl⟩
    cases (says_iff_of_isSkipped hskipped).mp hss
    refine ⟨us ++ (qs ++ ([] ++ (ps ++ vs))), ?_, ?_⟩
    · apply says_append_iff.mpr ⟨us, _, hus, ?_, rfl⟩
      apply says_append_iff.mpr ⟨qs, _, hqs, ?_, rfl⟩
      apply says_append_iff.mpr ⟨[], _, hss, ?_, rfl⟩
      exact says_append_iff.mpr ⟨ps, vs, hps, hvs, rfl⟩
    · rw [says_singleton_iff, lineSays_iff hhead harrow] at hps
      rw [says_singleton_iff, lineSays_iff hhead' harrow'] at hqs
      exact alike_swap (hus.ne_nil hbefore) hps hqs hne

theorem EditsTo.exists_alike {text text' : List Char} (h : EditsTo text text')
    (hs : Says (text.splitOn '\n') ps) : ∃ qs, Says (text'.splitOn '\n') qs ∧ Alike ps qs := by
  induction h with
  | refl => exact ⟨ps, hs, Alike.refl ps⟩
  | tail _ hedit ih =>
    rcases ih with ⟨qs, hqs, halike⟩
    rcases hedit.exists_alike hqs with ⟨rs, hrs, halike'⟩
    exact ⟨rs, hrs, halike.trans halike'⟩

end Effect

end RuleText

open RuleText

/--
The layout of a rule text does not matter. If every line that is neither blank nor a comment writes
a rule, then whatever is edited in the layout, the same grammar or the same error comes of the text.
-/
theorem ofRuleText_of_editsTo {text text' : List Char}
    (hwrites : ∀ line, line ∈ ruleLines (text.splitOn '\n') → ∃ r, Writes line r)
    (h : EditsTo text text') : ofRuleText text' = ofRuleText text := by
  rcases exists_meaning hwrites with ⟨ps, hps⟩
  rcases h.exists_alike hps with ⟨qs, hqs, halike⟩
  rw [ofRuleText_eq_outcome hqs, ofRuleText_eq_outcome hps, halike.outcome_eq]

theorem editsTo_rearranged :
    EditsTo (unlines ["S->aA|ε".toList, "A->b".toList, "B→c".toList])
      (unlines ["#\r".toList, "S →a A ".toList, "S → ε".toList, "B→c".toList, "A->b".toList]) := by
  have hS : Text.eraseBlanks "S ".toList = ['S'] := by decide
  have hcomment : Edit ["S->aA|ε".toList, "A->b".toList, "B→c".toList]
      ["#".toList, "S->aA|ε".toList, "A->b".toList, "B→c".toList] := by
    have h : Relaid [] ["#".toList] := .skipped nofun (by decide)
    exact .relaid [] ["S->aA|ε".toList, "A->b".toList, "B→c".toList] h
  have hblanks : Edit ["#".toList, "S->aA|ε".toList, "A->b".toList, "B→c".toList]
      ["#".toList, "S ->a A | ε".toList, "A->b".toList, "B→c".toList] := by
    have h : Relaid ["S".toList ++ ("->".toList ++ "aA|ε".toList)]
        ["S ".toList ++ ("->".toList ++ "a A | ε".toList)] :=
      .blanks (by decide) hS (.inl rfl) (by decide)
    exact .relaid ["#".toList] ["A->b".toList, "B→c".toList] h
  have harrow : Edit ["#".toList, "S ->a A | ε".toList, "A->b".toList, "B→c".toList]
      ["#".toList, "S →a A | ε".toList, "A->b".toList, "B→c".toList] := by
    have h : Relaid ["S ".toList ++ ("->".toList ++ "a A | ε".toList)]
        ["S ".toList ++ ("→".toList ++ "a A | ε".toList)] := .arrow hS (.inl rfl) (.inr rfl)
    exact .relaid ["#".toList] ["A->b".toList, "B→c".toList] h
  have hsplit : Edit ["#".toList, "S →a A | ε".toList, "A->b".toList, "B→c".toList]
      ["#".toList, "S →a A ".toList, "S → ε".toList, "A->b".toList, "B→c".toList] := by
    have h : Relaid ["S ".toList ++ ("→".toList ++ ("a A ".toList ++ '|' :: " ε".toList))]
        ["S ".toList ++ ("→".toList ++ "a A ".toList),
          "S ".toList ++ ("→".toList ++ " ε".toList)] :=
      .split hS (.inr rfl)
    exact .relaid ["#".toList] ["A->b".toList, "B→c".toList] h
  have hswapped : Edit ["#".toList, "S →a A ".toList, "S → ε".toList, "A->b".toList, "B→c".toList]
      ["#".toList, "S →a A ".toList, "S → ε".toList, "B→c".toList, "A->b".toList] := by
    have hA : Text.eraseBlanks "A".toList = ['A'] := by decide
    have hB : Text.eraseBlanks "B".toList = ['B'] := by decide
    have h : Edit (["#".toList, "S →a A ".toList, "S → ε".toList] ++
          (["A".toList ++ ("->".toList ++ "b".toList)] ++
            ([] ++ (["B".toList ++ ("→".toList ++ "c".toList)] ++ []))))
        (["#".toList, "S →a A ".toList, "S → ε".toList] ++
          (["B".toList ++ ("→".toList ++ "c".toList)] ++
            ([] ++ (["A".toList ++ ("->".toList ++ "b".toList)] ++ [])))) :=
      .swapped [] hA (.inl rfl) hB (.inr rfl) (by decide) nofun (by decide)
    exact h
  have hreturn :
      Edit ["#".toList, "S →a A ".toList, "S → ε".toList, "B→c".toList, "A->b".toList]
        ["#\r".toList, "S →a A ".toList, "S → ε".toList, "B→c".toList, "A->b".toList] :=
    .relaid [] ["S →a A ".toList, "S → ε".toList, "B→c".toList, "A->b".toList]
      (.carriageReturn "#".toList)
  apply (hcomment.editsTo (by decide) (by decide)).trans
  apply (hblanks.editsTo (by decide) (by decide)).trans
  apply (harrow.editsTo (by decide) (by decide)).trans
  apply (hsplit.editsTo (by decide) (by decide)).trans
  apply (hswapped.editsTo (by decide) (by decide)).trans
  exact hreturn.editsTo (by decide) (by decide)

theorem ofRuleText_of_editsTo_rearranged :
    (∀ line, line ∈ ruleLines ("S->aA|ε\nA->b\nB→c".toList.splitOn '\n') → ∃ r, Writes line r) ∧
      (ofRuleText "S->aA|ε\nA->b\nB→c".toList).isOk = true ∧
      ofRuleText "#\r\nS →a A \nS → ε\nB→c\nA->b".toList =
        ofRuleText "S->aA|ε\nA->b\nB→c".toList := by
  have hwrites (line : List Char)
      (h : line ∈ ruleLines ("S->aA|ε\nA->b\nB→c".toList.splitOn '\n')) :
      ∃ r, Writes line r := by
    have hlines : ruleLines ("S->aA|ε\nA->b\nB→c".toList.splitOn '\n') =
        ["S->aA|ε".toList, "A->b".toList, "B→c".toList] := by
      decide
    rw [hlines, List.mem_cons, List.mem_cons, List.mem_singleton] at h
    rcases h with rfl | rfl | rfl
    · exact ⟨⟨'S', [['a', 'A'], ['ε']]⟩, "aA|ε".toList,
        ⟨rfl, [], ['-', '>'], nofun, .inl rfl, rfl⟩, by decide, .inl (by decide)⟩
    · exact ⟨⟨'A', [['b']]⟩, ['b'], ⟨rfl, [], ['-', '>'], nofun, .inl rfl, rfl⟩, by decide,
        .inl (by decide)⟩
    · exact ⟨⟨'B', [['c']]⟩, ['c'], ⟨rfl, [], ['→'], nofun, .inr rfl, rfl⟩, by decide,
        .inl (by decide)⟩
  exact ⟨hwrites, by decide, ofRuleText_of_editsTo hwrites editsTo_rearranged⟩

end Grammar

end RegLang
