import RegLang.Proofs.Conversion.Validity
import RegLang.Proofs.Grammar.Builder
import RegLang.Proofs.Grammar.Definition

/-!
This module contains which grammars come back unchanged when they are written as definitions and
read again: those without blanks in their productions. Every grammar that was read from text or
built from written rules is of this kind, because reading a production drops its blanks.
-/

namespace RegLang

namespace Grammar

variable {g : Grammar} {A : Char} {ps : List Production}

def IsBlankFree (g : Grammar) : Prop :=
  ∀ A p s, p ∈ g.productionsFor A → s ∈ p.symbols → Text.isBlank s.char = false

theorem keys_withoutBlanks : g.withoutBlanks.productions.keys = g.productions.keys := by
  apply FinSet.ext
  intro A
  unfold withoutBlanks
  rw [FinMap.mem_keys, FinMap.mem_keys, FinMap.get?_filterMap]
  cases g.productions.get? A <;> simp

theorem withoutBlanks_eq_iff : g.withoutBlanks = g.withMaxDepth 100 ↔ g.IsBlankFree := by
  constructor
  · intro h A p s hp
    have hmap : (g.productionsFor A).map .withoutBlanks = (g.productionsFor A).map id := by
      rw [← productionsFor_withoutBlanks, h, List.map_id]
      rfl
    exact Production.withoutBlanks_eq_self_iff.mp (List.map_inj_left.mp hmap p hp) s
  · intro h
    have hproductions : g.withoutBlanks.productions = g.productions := by
      apply FinMap.ext
      intro A
      unfold withoutBlanks
      rw [FinMap.get?_filterMap]
      cases hA : g.productions.get? A with
      | none => rfl
      | some ps =>
        have hmap : ps.map .withoutBlanks = ps.map id := by
          apply List.map_inj_left.mpr
          intro p hp
          apply Production.withoutBlanks_eq_self_iff.mpr
          intro s
          exact h A p s (mem_productionsFor.mpr ⟨ps, hA, hp⟩)
        rw [Option.bind_some, hmap, List.map_id]
    unfold withMaxDepth
    rw [← hproductions]
    rfl

theorem isBlankFree_of_build {b : Builder} (h : b.build = .ok g) : g.IsBlankFree := by
  have hg : g = b.inferred := (checked_eq_ok_iff.mp h).2
  intro A p s hp hs
  rw [hg, Builder.productionsFor_inferred, List.mem_map] at hp
  rcases hp with ⟨rhs, _, rfl⟩
  exact Production.isBlank_of_mem_parse hs

theorem Definition.isBlankFree_of_toGrammar {d : Definition} (h : d.toGrammar = .ok g) :
    g.IsBlankFree := by
  unfold toGrammar at h
  rcases exists_of_bind_eq_ok h with ⟨entries, hentries, h⟩
  have hg := (checked_eq_ok_iff.mp h).2
  intro A p s hp hs
  rw [hg] at hp
  rcases mem_productionsFor.mp hp with ⟨ps, hps, hp⟩
  rcases exists_of_mem_mapM hentries (FinMap.mem_of_get?_ofList hps) with ⟨e, _, he⟩
  unfold entry at he
  rcases exists_of_bind_eq_ok he with ⟨A', _, he⟩
  cases he
  rcases List.mem_map.mp hp with ⟨rhs, _, rfl⟩
  exact Production.isBlank_of_mem_parse hs

/--
A valid grammar always comes back. Its symbols, its start symbol and its left-hand sides are the
same, the alternatives are those without blanks, and the limit is the default one, so all parts are
the same if and only if no production holds a blank. This holds of all grammars that are read from
rule text, built from written rules or made of a definition.
-/
theorem exists_toGrammar_ofGrammar :
    (∀ g : Grammar, g.IsValid → ∃ h, (Definition.ofGrammar g).toGrammar = .ok h ∧
      h.nonTerminals = g.nonTerminals ∧ h.terminals = g.terminals ∧ h.start = g.start ∧
      h.productions.keys = g.productions.keys ∧
      (∀ A, h.productionsFor A = (g.productionsFor A).map .withoutBlanks) ∧ h.maxDepth = 100 ∧
      (h = g.withMaxDepth 100 ↔ g.IsBlankFree)) ∧
    (∀ text g, ofRuleText text = .ok g → g.IsValid ∧ g.IsBlankFree) ∧
    (∀ (b : Builder) g, b.build = .ok g → g.IsValid ∧ g.IsBlankFree) ∧
    ∀ (d : Definition) g, d.toGrammar = .ok g → g.IsValid ∧ g.IsBlankFree := by
  refine ⟨?_, ?_, ?_, ?_⟩
  · intro g hg
    exact ⟨g.withoutBlanks, Definition.toGrammar_ofGrammar hg, rfl, rfl, rfl, keys_withoutBlanks,
      fun A => productionsFor_withoutBlanks, rfl, withoutBlanks_eq_iff⟩
  · intro text g h
    rcases exists_build_of_ofRuleText h with ⟨b, hb⟩
    exact ⟨isValid_of_ofRuleText h, isBlankFree_of_build hb⟩
  · intro b g h
    exact ⟨isValid_of_checked h, isBlankFree_of_build h⟩
  · intro d g h
    exact ⟨Definition.isValid_of_toGrammar h, Definition.isBlankFree_of_toGrammar h⟩

def padded : Grammar where
  nonTerminals := .ofList ['S', 'T']
  terminals := .ofList [' ', '\t', 'a']
  productions := .ofList
    [('S', [⟨[.terminal ' ', .nonTerminal 'S', .terminal 'a', .terminal '\t']⟩, .letter ' ']),
     ('T', [])]
  start := 'S'
  maxDepth := 7

def doubled : Grammar where
  nonTerminals := .ofList ['S']
  terminals := .ofList ['a']
  productions := .ofList [('S', [⟨[.terminal 'a', .terminal 'a']⟩])]
  start := 'S'

theorem exists_toGrammar_ofGrammar_padded :
    padded.IsValid ∧
      (∃ h, (Definition.ofGrammar padded).toGrammar = .ok h ∧ 'T' ∈ h.productions.keys ∧
        h.productionsFor 'S' = [⟨[.nonTerminal 'S', .terminal 'a']⟩, .epsilon] ∧
        h ≠ padded.withMaxDepth 100) ∧
      ofRuleText "S -> a a".toList = .ok doubled ∧
      (({ start := 'S' } : Builder).addRule 'S' "a a".toList).build = .ok doubled ∧
      (Definition.ofGrammar doubled).toGrammar = .ok doubled ∧ doubled.IsBlankFree := by
  have hpadded : padded.IsValid := isValid_of_checked (by decide : padded.checked = .ok padded)
  have htext : ofRuleText "S -> a a".toList = .ok doubled := by decide
  have hbuilder : (({ start := 'S' } : Builder).addRule 'S' "a a".toList).build = .ok doubled := by
    decide
  have hdefinition : (Definition.ofGrammar doubled).toGrammar = .ok doubled := by decide
  refine ⟨hpadded, ?_, htext, hbuilder, hdefinition, ?_⟩
  · rcases exists_toGrammar_ofGrammar.1 padded hpadded with
      ⟨h, hok, _, _, _, hkeys, hproductions, _, hself⟩
    refine ⟨h, hok, ?_, ?_, ?_⟩
    · rw [hkeys]
      exact FinSet.contains_iff.mp (by decide)
    · rw [hproductions]
      decide
    · intro e
      have hblank := hself.mp e 'S' (.letter ' ') (.terminal ' ') (by decide) (by decide)
      cases hblank
  · exact (exists_toGrammar_ofGrammar.2.1 _ _ htext).2

end Grammar

end RegLang
