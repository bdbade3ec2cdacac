import RegLang.Proofs.Grammar.Generation

/-!
This module contains what a higher depth limit changes in a generation: nothing if the lower limit
is kept, and otherwise the generation goes on from where the lower limit cuts it off.
-/

namespace RegLang

namespace Grammar

variable {g : Grammar} {A : Char} {depth depth' : Nat} {p : Production} {symbols : List Symbol}
  {source : WordSource} {r r' : Generation}

namespace Generation

variable {expand expand' : Char → WordSource → Generation}

/--
Whether a part of a generation comes to the same as another one, unless the depth limit cuts it off
on the way.
-/
structure IsCutOf (r r' : Generation) : Prop where
  eq_of_completed : r.completed = true → r' = r
  isPrefix : r.expansions <+: r'.expansions

theorem IsCutOf.refl (r : Generation) : r.IsCutOf r where
  eq_of_completed _ := rfl
  isPrefix := List.prefix_rfl

theorem IsCutOf.prepend (h : r.IsCutOf r') (es : List Expansion) (w : List Char) :
    IsCutOf { r with expansions := es ++ r.expansions, text := w ++ r.text }
      { r' with expansions := es ++ r'.expansions, text := w ++ r'.text } where
  eq_of_completed hc := by rw [h.eq_of_completed hc]
  isPrefix := (List.prefix_append_right_inj es).mpr h.isPrefix

theorem expansions_isPrefix_ofSymbols :
    (expand A source).expansions <+:
      (ofSymbols expand (.nonTerminal A :: symbols) source).expansions := by
  cases hc : (expand A source).completed with
  | true =>
    rw [ofSymbols_nonTerminal_of_completed hc]
    apply List.prefix_append
  | false =>
    exact ⟨[], by rw [ofSymbols_nonTerminal_of_not_completed hc, List.append_nil]⟩

theorem isCutOf_ofSymbols (h : ∀ A source, (expand A source).IsCutOf (expand' A source)) :
    (ofSymbols expand symbols source).IsCutOf (ofSymbols expand' symbols source) := by
  induction symbols generalizing source with
  | nil => apply IsCutOf.refl
  | cons x symbols ih =>
    cases x with
    | terminal c => exact ih.prepend [] [c]
    | nonTerminal A =>
      cases hc : (expand A source).completed with
      | true =>
        have heq := (h A source).eq_of_completed hc
        have hc' : (expand' A source).completed = true := by
          rw [heq, hc]
        rw [ofSymbols_nonTerminal_of_completed hc, ofSymbols_nonTerminal_of_completed hc', heq]
        apply ih.prepend
      | false =>
        -- The first part is cut off, and it need not be so under the higher limit.
        rw [ofSymbols_nonTerminal_of_not_completed hc]
        constructor
        · intro hc'
          rw [hc] at hc'
          cases hc'
        · apply (h A source).isPrefix.trans
          apply expansions_isPrefix_ofSymbols

end Generation

theorem isCutOf_expand (h : depth ≤ depth') :
    (g.expand depth A source).IsCutOf (g.expand depth' A source) := by
  induction depth generalizing depth' A source with
  | zero =>
    constructor
    · intro hc
      cases hc
    · apply List.nil_prefix
  | succ depth ih =>
    cases depth' with
    | zero => omega
    | succ depth' =>
      rcases expand_succ_cases g A source with ⟨_, hexpand⟩ | ⟨p, next, _, hexpand⟩
      · rw [hexpand, hexpand]
        apply Generation.IsCutOf.refl
      · rw [hexpand, hexpand]
        refine Generation.IsCutOf.prepend ?_ [.applied A p] []
        apply Generation.isCutOf_ofSymbols
        intro B source
        apply ih
        omega

theorem expand_withMaxDepth {limit : Nat} :
    (g.withMaxDepth limit).expand depth = g.expand depth := by
  induction depth with
  | zero => rfl
  | succ depth ih =>
    funext A source
    unfold expand
    rw [ih]
    rfl

theorem isCutOf_generation_withMaxDepth (h : depth ≤ depth') :
    ((g.withMaxDepth depth).generation source).IsCutOf
      ((g.withMaxDepth depth').generation source) := by
  unfold generation
  rw [expand_withMaxDepth, expand_withMaxDepth]
  apply isCutOf_expand
  exact h

theorem generationEvents_isPrefix (hc : r.completed = false) (h : r.expansions <+: r'.expansions) :
    g.generationEvents r <+: g.generationEvents r' := by
  rw [generationEvents_of_not_completed hc]
  unfold generationEvents
  rw [List.cons_append]
  apply (List.prefix_cons_inj _).mpr
  apply (h.map Expansion.event).trans
  apply List.prefix_append

/--
A higher depth limit changes nothing in a generation that succeeds: it makes the same string with
the same events and leaves the same words. The events of a generation that fails are those with
which the generation under a higher limit begins.
-/
theorem generate_withMaxDepth_of_le (h : depth ≤ depth') (source : WordSource) :
    let lower := g.withMaxDepth depth
    let higher := g.withMaxDepth depth'
    let events := lower.generationEvents (lower.generation source)
    let events' := higher.generationEvents (higher.generation source)
    (∀ w, lower.generate source = .ok w →
      higher.generate source = .ok w ∧ events' = events ∧
        (higher.generation source).source = (lower.generation source).source) ∧
    ∀ e, lower.generate source = .error e → events <+: events' := by
  intro lower higher events events'
  have hcut : (lower.generation source).IsCutOf (higher.generation source) :=
    isCutOf_generation_withMaxDepth h
  constructor
  · intro w hw
    rcases generate_eq_ok_iff.mp hw with ⟨hc, htext⟩
    have heq : higher.generation source = lower.generation source := hcut.eq_of_completed hc
    refine ⟨?_, ?_, ?_⟩
    · rw [generate_eq_ok_iff, heq]
      exact ⟨hc, htext⟩
    · unfold events'
      rw [heq]
      rfl
    · rw [heq]
  · intro e he
    apply generationEvents_isPrefix
    · exact (generate_eq_error_iff.mp he).1
    · exact hcut.isPrefix

theorem generate_withMaxDepth_of_le_bracketed :
    let source : WordSource := ⟨[0, 0xB0000000], 0⟩
    let cut := bracketed.withMaxDepth 2
    let full := bracketed.withMaxDepth 3
    let higher := bracketed.withMaxDepth 7
    2 ≤ 3 ∧ cut.generate source = .error (.depthExceeded 2) ∧
      cut.generationEvents (cut.generation source) <+:
        full.generationEvents (full.generation source) ∧
      3 ≤ 7 ∧ full.generate source = .ok ['a', 'b'] ∧ higher.generate source = .ok ['a', 'b'] ∧
        higher.generationEvents (higher.generation source) =
          full.generationEvents (full.generation source) ∧
        (higher.generation source).source = (full.generation source).source := by
  have hcut : (bracketed.withMaxDepth 2).generate ⟨[0, 0xB0000000], 0⟩ =
      .error (.depthExceeded 2) :=
    generate_eq_error_iff.mpr ⟨by decide, rfl⟩
  have hfull : (bracketed.withMaxDepth 3).generate ⟨[0, 0xB0000000], 0⟩ = .ok ['a', 'b'] :=
    generate_eq_ok_iff.mpr ⟨by decide, by decide⟩
  have hprefix := (generate_withMaxDepth_of_le (by decide : 2 ≤ 3) _).2 _ hcut
  have hsame := (generate_withMaxDepth_of_le (by decide : 3 ≤ 7) _).1 _ hfull
  exact ⟨by decide, hcut, hprefix, by decide, hfull, hsame⟩

end Grammar

end RegLang
