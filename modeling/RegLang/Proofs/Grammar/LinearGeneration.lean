import RegLang.Proofs.Grammar.Derivation
import RegLang.Proofs.Grammar.Replay

/-!
This module contains how the depth limit bounds generation from a right-linear grammar. At most one
non-terminal is left at any time there, so the limit is one on the number of expansions, and a
generation is cut off if and only if it spends the whole limit on productions `aB`.
-/

namespace RegLang

namespace Event

def isExpansion : Event → Bool
  | productionApplied _ _ => true
  | deadEnd _ => true
  | _ => false

def production? : Event → Option String
  | productionApplied _ text => some text
  | _ => none

end Event

namespace Grammar

variable {g : Grammar} {A : Char} {depth : Nat} {p : Production} {source : WordSource}
  {r : Generation}

def Expansion.production? : Expansion → Option Production
  | applied _ p => some p
  | deadEnd _ => none

namespace Generation

def productions (r : Generation) : List Production := r.expansions.filterMap Expansion.production?

inductive IsLinear (g : Grammar) : (depth : Nat) → Generation → Prop where
  | cut (source : WordSource) : IsLinear g 0 ⟨[], [], source, false⟩
  | deadEnd (depth : Nat) (A : Char) (source : WordSource) :
    IsLinear g (depth + 1) ⟨[.deadEnd A], [], source, true⟩
  | empty (depth : Nat) {A : Char} (source : WordSource) :
    .epsilon ∈ g.productionsFor A →
      IsLinear g (depth + 1) ⟨[.applied A .epsilon], [], source, true⟩
  | letter (depth : Nat) {A a : Char} (source : WordSource) :
    .letter a ∈ g.productionsFor A →
      IsLinear g (depth + 1) ⟨[.applied A (.letter a)], [a], source, true⟩
  | step {depth : Nat} {A a B : Char} {r : Generation} :
    .step a B ∈ g.productionsFor A → IsLinear g depth r →
      IsLinear g (depth + 1)
        { r with expansions := .applied A (.step a B) :: r.expansions, text := a :: r.text }

namespace IsLinear

theorem length_expansions_le (h : IsLinear g depth r) : r.expansions.length ≤ depth := by
  induction h with
  | cut => simp
  | deadEnd => simp
  | empty => simp
  | letter => simp
  | step _ _ ih =>
    simp only [List.length_cons]
    omega

theorem completed_eq_false_iff (h : IsLinear g depth r) :
    r.completed = false ↔
      r.productions.length = depth ∧ ∀ p, p ∈ r.productions → ∃ a B, p = .step a B := by
  induction h with
  | cut => simp [productions]
  | deadEnd => simp [productions, List.filterMap_cons, Expansion.production?]
  | empty => simp [productions, Expansion.production?, Production.epsilon, Production.step]
  | letter => simp [productions, Expansion.production?, Production.letter, Production.step]
  | @step depth A a B r _ _ ih =>
    unfold productions at ih ⊢
    simp [ih, Expansion.production?]

theorem deadEnd_not_mem (h : IsLinear g depth r) (hc : r.completed = false) (A : Char) :
    ¬ .deadEnd A ∈ r.expansions := by
  induction h with
  | cut => simp
  | deadEnd => cases hc
  | empty => simp
  | letter => simp
  | step _ _ ih => simp [ih hc]

theorem length_text (h : IsLinear g depth r) :
    r.text.length = (r.productions.filter (· ≠ .epsilon)).length := by
  induction h with
  | cut => rfl
  | deadEnd => rfl
  | empty => rfl
  | letter => rfl
  | step _ _ ih => exact congrArg (· + 1) ih

theorem exists_mem_productionsFor (h : IsLinear g depth r) (hp : p ∈ r.productions) :
    ∃ A, p ∈ g.productionsFor A := by
  induction h with
  | cut => cases hp
  | deadEnd => cases hp
  | empty _ _ hA =>
    cases List.mem_singleton.mp hp
    exact ⟨_, hA⟩
  | letter _ _ hA =>
    cases List.mem_singleton.mp hp
    exact ⟨_, hA⟩
  | step hA _ ih =>
    rcases List.mem_cons.mp hp with hp | hp
    · exact ⟨_, hp ▸ hA⟩
    · exact ih hp

end IsLinear

end Generation

theorem isRightLinear_iff : g.IsRightLinear ↔ ∀ rule, rule ∈ g.rules → rule.2.shape ≠ .other := by
  simp only [IsRightLinear, Prod.forall, mem_rules]

instance : Decidable g.IsRightLinear := decidable_of_iff _ isRightLinear_iff.symm

theorem IsRightLinear.isLinear_expand (hg : g.IsRightLinear) :
    Generation.IsLinear g depth (g.expand depth A source) := by
  induction depth generalizing A source with
  | zero => apply Generation.IsLinear.cut
  | succ depth ih =>
    rcases expand_succ_cases g A source with ⟨_, hexpand⟩ | ⟨p, next, hp, hexpand⟩
    · rw [hexpand]
      apply Generation.IsLinear.deadEnd
    · rw [hexpand]
      rcases Production.exists_of_shape_ne_other (hg A p hp) with e | ⟨a, e⟩ | ⟨a, B, e⟩
      · subst e
        apply Generation.IsLinear.empty
        exact hp
      · subst e
        apply Generation.IsLinear.letter
        exact hp
      · subst e
        rw [Generation.ofSymbols_step]
        exact .step hp ih

section Events

theorem isExpansion_event (e : Expansion) : e.event.isExpansion = true := by
  cases e <;> rfl

theorem production?_event (e : Expansion) : e.event.production? = e.production?.map toString := by
  cases e <;> rfl

theorem countP_isExpansion_generationEvents :
    (g.generationEvents r).countP Event.isExpansion = r.expansions.length := by
  have hmap : (r.expansions.map Expansion.event).countP Event.isExpansion =
      r.expansions.length := by
    rw [List.countP_map, List.countP_eq_length]
    intro e _
    apply isExpansion_event
  unfold generationEvents
  rw [List.countP_append, List.countP_cons_of_neg Bool.false_ne_true, hmap]
  split <;> rfl

theorem filterMap_production?_generationEvents :
    (g.generationEvents r).filterMap Event.production? = r.productions.map toString := by
  have hmap : (r.expansions.map Expansion.event).filterMap Event.production? =
      r.productions.map toString := by
    unfold Generation.productions
    rw [List.filterMap_map, List.map_filterMap]
    apply List.filterMap_congr
    intro e _
    apply production?_event
  unfold generationEvents
  rw [List.filterMap_append, List.filterMap_cons_none rfl, hmap]
  split <;> apply List.append_nil

namespace IsValid

variable (hg : g.IsValid)

include hg

theorem toString_eq_epsilon_iff (hp : p ∈ g.productionsFor A) :
    toString p = "ε" ↔ p = .epsilon := by
  rw [← Production.symbols_eq_nil_iff, ← hg.text_eq_epsilon_iff hp, ← String.ofList_inj]
  rfl

theorem exists_getLast?_toString_iff (hp : p ∈ g.productionsFor A) (hs : p.shape ≠ .other) :
    (∃ B, B ∈ g.nonTerminals ∧ (toString p).toList.getLast? = some B) ↔
      ∃ a B, p = .step a B := by
  have htext : (toString p).toList = p.text := String.toList_ofList
  rw [htext]
  constructor
  · rintro ⟨B, hB, hlast⟩
    rcases Production.exists_of_shape_ne_other hs with e | ⟨a, e⟩ | ⟨a, C, e⟩
    · subst e
      cases hlast
      exact absurd hB hg.epsilon_not_mem_nonTerminals
    · subst e
      cases hlast
      have ha : a ∈ g.terminals := hg.declares A _ (.terminal a) hp List.mem_cons_self
      exact absurd ha (hg.disjoint a hB)
    · exact ⟨a, C, e⟩
  · rintro ⟨a, B, e⟩
    subst e
    refine ⟨B, hg.declares A _ (.nonTerminal B) hp ?_, rfl⟩
    apply List.mem_cons_of_mem
    apply List.mem_cons_self

theorem forall_exists_getLast?_iff (hl : g.IsRightLinear) (hr : Generation.IsLinear g depth r) :
    (∀ text, text ∈ r.productions.map toString →
        ∃ B, B ∈ g.nonTerminals ∧ text.toList.getLast? = some B) ↔
      ∀ p, p ∈ r.productions → ∃ a B, p = .step a B := by
  rw [List.forall_mem_map]
  apply forall₂_congr
  intro p hp
  rcases hr.exists_mem_productionsFor hp with ⟨A, hA⟩
  apply hg.exists_getLast?_toString_iff hA
  exact hl A p hA

theorem length_filter_map_toString (hr : Generation.IsLinear g depth r) :
    ((r.productions.map toString).filter (· ≠ "ε")).length = r.text.length := by
  rw [hr.length_text, List.filter_map, List.length_map]
  apply congrArg List.length
  apply List.filter_congr
  intro p hp
  rcases hr.exists_mem_productionsFor hp with ⟨A, hA⟩
  rw [Function.comp_apply, decide_eq_decide, ne_eq, ne_eq, hg.toString_eq_epsilon_iff hA]

end IsValid

end Events

/--
Generation from a right-linear grammar makes no more expansions than the depth limit allows. It
fails if and only if it applies as many productions as the limit allows and each of them ends in a
non-terminal, and then it meets no dead end. A generated string has one letter for each production
applied but `ε`.
-/
theorem countP_isExpansion_le_and_generate_eq_error_iff (hg : g.IsValid) (hl : g.IsRightLinear)
    (source : WordSource) :
    let events := g.generationEvents (g.generation source)
    let productions := events.filterMap Event.production?
    events.countP Event.isExpansion ≤ g.maxDepth ∧
      (∀ e, g.generate source = .error e ↔ e = .depthExceeded g.maxDepth ∧
        productions.length = g.maxDepth ∧
          ∀ text, text ∈ productions → ∃ B, B ∈ g.nonTerminals ∧ text.toList.getLast? = some B) ∧
      (∀ e, g.generate source = .error e → ∀ A, ¬ .deadEnd A ∈ events) ∧
      ∀ w, g.generate source = .ok w → w.length = (productions.filter (· ≠ "ε")).length := by
  intro events productions
  have hr : Generation.IsLinear g g.maxDepth (g.generation source) := hl.isLinear_expand
  have hproductions : productions = (g.generation source).productions.map toString :=
    filterMap_production?_generationEvents
  refine ⟨?_, ?_, ?_, ?_⟩
  · unfold events
    rw [countP_isExpansion_generationEvents]
    exact hr.length_expansions_le
  · intro e
    rw [generate_eq_error_iff, hr.completed_eq_false_iff, hproductions, List.length_map,
      hg.forall_exists_getLast?_iff hl hr, and_comm]
  · intro e he A
    unfold events
    rw [deadEnd_mem_generationEvents]
    apply hr.deadEnd_not_mem
    exact (generate_eq_error_iff.mp he).1
  · intro w hw
    rw [hproductions, hg.length_filter_map_toString hr]
    exact congrArg List.length (generate_eq_ok_iff.mp hw).2.symm

def winding : Grammar where
  nonTerminals := .ofList ['S', 'T']
  terminals := .ofList ['a', 'b']
  productions := .ofList [('S', [.step 'a' 'S', .letter 'b', .step 'b' 'T', .epsilon])]
  start := 'S'
  maxDepth := 3

theorem countP_isExpansion_le_and_generate_eq_error_iff_winding :
    let events := winding.generationEvents (winding.generation ⟨[], 0⟩)
    let events' := winding.generationEvents (winding.generation ⟨[0, 0x80000000], 0⟩)
    winding.IsValid ∧ winding.IsRightLinear ∧
      winding.generate ⟨[], 0⟩ = .error (.depthExceeded 3) ∧
      (events.filterMap Event.production?).length = 3 ∧
      (∀ A, ¬ .deadEnd A ∈ events) ∧
      winding.generate ⟨[0, 0x80000000], 0⟩ = .ok ['a', 'b'] ∧
      events'.countP Event.isExpansion ≤ 3 ∧
      ['a', 'b'].length = ((events'.filterMap Event.production?).filter (· ≠ "ε")).length := by
  have hg : winding.IsValid := problem?_eq_none_iff.mp (by decide)
  have hl : winding.IsRightLinear := by
    decide
  have herror : winding.generate ⟨[], 0⟩ = .error (.depthExceeded 3) :=
    generate_eq_error_iff.mpr ⟨by decide, rfl⟩
  have hok : winding.generate ⟨[0, 0x80000000], 0⟩ = .ok ['a', 'b'] :=
    generate_eq_ok_iff.mpr ⟨by decide, by decide⟩
  rcases countP_isExpansion_le_and_generate_eq_error_iff hg hl ⟨[], 0⟩ with ⟨_, hfails, hdead, _⟩
  rcases countP_isExpansion_le_and_generate_eq_error_iff hg hl ⟨[0, 0x80000000], 0⟩ with
    ⟨hle, _, _, hlength⟩
  exact ⟨hg, hl, herror, ((hfails _).mp herror).2.1, hdead _ herror, hok, hle, hlength _ hok⟩

end Grammar

end RegLang
