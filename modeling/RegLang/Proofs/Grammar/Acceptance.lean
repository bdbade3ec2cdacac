import Mathlib.Data.List.Nodup
import RegLang.Grammar.Definition
import RegLang.Proofs.Except
import RegLang.Proofs.FinMap.OfList
import RegLang.Proofs.Grammar.Problem
import RegLang.Proofs.Production.Parse

/-!
This module contains which definitions become grammars, and which grammars they become: those that
write their left-hand sides as single characters and declare all that they use.
-/

namespace RegLang

theorem Production.mem_of_tag_eq_nonTerminal {names : FinSet Char} {c d : Char}
    (h : tag names d = .nonTerminal c) : c ∈ names := by
  unfold tag at h
  split at h
  · next hd =>
    cases h
    exact FinSet.contains_iff.mp hd
  · cases h

namespace Grammar

variable {g : Grammar} {s : Symbol} {A c : Char}

theorem mem_uses :
    s ∈ g.uses ↔ s = .nonTerminal g.start ∨ (∃ A, A ∈ g.productions.keys ∧ s = .nonTerminal A) ∨
      ∃ A p, p ∈ g.productionsFor A ∧ s ∈ p.symbols := by
  unfold uses
  simp only [List.mem_cons, List.mem_flatMap, Prod.exists, FinMap.mem_entries, FinMap.mem_keys,
    mem_productionsFor]
  apply or_congr_right
  constructor
  · rintro ⟨A, ps, hA, hs | ⟨p, hp, hs⟩⟩
    · exact .inl ⟨A, ⟨ps, hA⟩, hs⟩
    · exact .inr ⟨A, p, ⟨ps, hA, hp⟩, hs⟩
  · rintro (⟨A, ⟨ps, hA⟩, hs⟩ | ⟨A, p, ⟨ps, hA, hp⟩, hs⟩)
    · exact ⟨A, ps, hA, .inl hs⟩
    · exact ⟨A, ps, hA, .inr ⟨p, hp, hs⟩⟩

theorem declares_tag_iff :
    g.Declares (Production.tag g.nonTerminals c) ↔ c ∈ g.nonTerminals ∨ c ∈ g.terminals := by
  unfold Production.tag
  split
  · next h =>
    rw [FinSet.contains_iff] at h
    exact iff_of_true h (.inl h)
  · next h =>
    rw [FinSet.contains_iff] at h
    exact (or_iff_right h).symm

theorem isFirstUndeclared_of_isFault (h : g.IsFault (.unknownNonTerminal c)) :
    g.IsFirstUndeclared (.nonTerminal c) := by
  generalize he : Error.unknownNonTerminal c = e at h
  cases h with
  | reserved => cases he
  | overlapping => cases he
  | @undeclared s _ _ hs =>
    cases s with
    | terminal d => cases he
    | nonTerminal d =>
      cases he
      exact hs

namespace Definition

variable {d : Definition} {names : FinSet Char} {key : String} {texts : List String}
  {rules : List (Char × List Production)} {ps : List Production} {e : Error}

def alternatives (d : Definition) (A : Char) : List String :=
  (d.productions.get? A.toString).getD []

structure IsConsistent (d : Definition) : Prop where
  key_mem : ∀ key, key ∈ d.productions.keys → ∃ A, key = A.toString ∧ A ∈ d.nonTerminals
  start_mem : d.start ∈ d.nonTerminals
  disjoint : ∀ c, c ∈ d.nonTerminals → ¬ c ∈ d.terminals
  epsilon_not_mem_nonTerminals : ¬ epsilon ∈ d.nonTerminals
  epsilon_not_mem_terminals : ¬ epsilon ∈ d.terminals
  letter_mem : ∀ key alternatives rhs c, d.productions.get? key = some alternatives →
    rhs ∈ alternatives → Text.trim rhs.toList ≠ [epsilon] → c ∈ rhs.toList →
      Text.isBlank c = false → c ∈ d.nonTerminals ∨ c ∈ d.terminals

def resolved (d : Definition) (rules : List (Char × List Production)) : Grammar where
  nonTerminals := .ofList d.nonTerminals
  terminals := .ofList d.terminals
  productions := .ofList rules
  start := d.start

theorem mem_alternatives {rhs : String} :
    rhs ∈ d.alternatives A ↔ ∃ texts, d.productions.get? A.toString = some texts ∧ rhs ∈ texts := by
  unfold alternatives
  cases d.productions.get? A.toString with
  | none => simp
  | some texts => simp

section Read

theorem lhs_eq_ok_iff : lhs key = .ok A ↔ key = A.toString := by
  unfold lhs
  rw [← String.toList_inj, Char.toString_eq_singleton, String.toList_singleton]
  split
  · next c h => simp [h]
  · next h => simpa using h A

theorem eq_malformedKey_of_lhs (h : lhs key = .error e) : e = .malformedKey key := by
  unfold lhs at h
  split at h
  · cases h
  · cases h
    rfl

theorem entry_eq_ok_iff :
    entry names (key, texts) = .ok (A, ps) ↔
      key = A.toString ∧
        ps = texts.map fun rhs => Production.parse names rhs.toList := by
  rw [← lhs_eq_ok_iff]
  unfold entry
  cases lhs key with
  | error e => simp [bind, Except.bind]
  | ok B => simp [bind, Except.bind, pure, Except.pure, eq_comm]

theorem eq_malformedKey_of_entry (h : entry names (key, texts) = .error e) :
    e = .malformedKey key := by
  apply eq_malformedKey_of_lhs
  unfold entry at h
  cases hl : lhs key with
  | error e' =>
    rw [hl] at h
    cases h
    rfl
  | ok B =>
    rw [hl] at h
    cases h

end Read

section Resolved

theorem map_toString_of_mapM {es : List (String × List String)}
    (h : es.mapM (entry names) = .ok rules) :
    rules.map (fun r => r.1.toString) = es.map Prod.fst := by
  induction es generalizing rules with
  | nil =>
    cases h
    rfl
  | cons e es ih =>
    rw [List.mapM_cons] at h
    rcases exists_of_bind_eq_ok h with ⟨r, hr, h⟩
    rcases exists_of_bind_eq_ok h with ⟨rules, hrules, h⟩
    cases h
    rw [List.map_cons, List.map_cons, ih hrules, (entry_eq_ok_iff.mp hr).1]

variable (h : d.productions.entries.mapM (entry (.ofList d.nonTerminals)) = .ok rules)

include h

theorem exists_key_eq_toString (hkey : key ∈ d.productions.keys) :
    ∃ A : Char, key = A.toString := by
  rcases FinMap.mem_keys.mp hkey with ⟨texts, htexts⟩
  rcases exists_mem_of_mapM h (FinMap.mem_entries.mpr htexts) with ⟨r, _, hr⟩
  exact ⟨r.1, (entry_eq_ok_iff.mp hr).1⟩

theorem get?_resolved :
    (d.resolved rules).productions.get? A =
      (d.productions.get? A.toString).map fun texts =>
        texts.map fun rhs => Production.parse (.ofList d.nonTerminals) rhs.toList := by
  have hnodup : (rules.map Prod.fst).Nodup := by
    have hkeys := d.productions.nodup_keys_entries
    rw [← map_toString_of_mapM h] at hkeys
    apply List.Nodup.of_map Char.toString
    rw [List.map_map]
    exact hkeys
  apply Option.ext
  intro ps
  unfold resolved
  rw [FinMap.get?_ofList_eq_some_iff hnodup, Option.map_eq_some_iff]
  constructor
  · intro hr
    rcases exists_of_mem_mapM h hr with ⟨⟨key, texts⟩, he, hentry⟩
    rcases entry_eq_ok_iff.mp hentry with ⟨hkey, hps⟩
    rw [FinMap.mem_entries, hkey] at he
    exact ⟨texts, he, hps.symm⟩
  · rintro ⟨texts, htexts, hps⟩
    rcases exists_mem_of_mapM h (FinMap.mem_entries.mpr htexts) with ⟨⟨B, qs⟩, hr, hentry⟩
    rcases entry_eq_ok_iff.mp hentry with ⟨hkey, hqs⟩
    rw [← hps, ← hqs, String.singleton_inj.mp hkey]
    exact hr

theorem productionsFor_resolved :
    (d.resolved rules).productionsFor A = (d.alternatives A).map fun rhs =>
      Production.parse (.ofList d.nonTerminals) rhs.toList := by
  unfold productionsFor alternatives
  rw [get?_resolved h]
  cases d.productions.get? A.toString with
  | none => rfl
  | some texts => rfl

theorem mem_keys_resolved :
    A ∈ (d.resolved rules).productions.keys ↔ A.toString ∈ d.productions.keys := by
  simp only [FinMap.mem_keys, get?_resolved h, Option.map_eq_some_iff]
  constructor
  · rintro ⟨ps, texts, htexts, _⟩
    exact ⟨texts, htexts⟩
  · rintro ⟨texts, htexts⟩
    exact ⟨_, texts, htexts, rfl⟩

theorem isConsistent_of_isValid_resolved (hd : (d.resolved rules).IsValid) : d.IsConsistent where
  key_mem key hkey := by
    rcases exists_key_eq_toString h hkey with ⟨A, hA⟩
    rw [hA, ← mem_keys_resolved h, FinMap.mem_keys] at hkey
    rcases hkey with ⟨ps, hps⟩
    exact ⟨A, hA, FinSet.mem_ofList.mp (hd.lhs_mem A ps hps)⟩
  start_mem := FinSet.mem_ofList.mp hd.start_mem
  disjoint c hn ht := hd.disjoint c (FinSet.mem_ofList.mpr hn) (FinSet.mem_ofList.mpr ht)
  epsilon_not_mem_nonTerminals hn := hd.epsilon_not_mem_nonTerminals (FinSet.mem_ofList.mpr hn)
  epsilon_not_mem_terminals ht := hd.epsilon_not_mem_terminals (FinSet.mem_ofList.mpr ht)
  letter_mem key texts rhs c htexts hrhs htrim hmem hblank := by
    rcases exists_key_eq_toString h (FinMap.mem_keys.mpr ⟨texts, htexts⟩) with ⟨A, hA⟩
    have hp : Production.parse (.ofList d.nonTerminals) rhs.toList ∈
        (d.resolved rules).productionsFor A := by
      rw [productionsFor_resolved h]
      apply List.mem_map_of_mem
      exact mem_alternatives.mpr ⟨texts, hA ▸ htexts, hrhs⟩
    have hs : Production.tag (.ofList d.nonTerminals) c ∈
        (Production.parse (.ofList d.nonTerminals) rhs.toList).symbols :=
      Production.mem_parse.mpr ⟨c, Production.mem_letters.mpr ⟨htrim, hmem, hblank⟩, rfl⟩
    rcases declares_tag_iff.mp (hd.declares A _ _ hp hs) with hc | hc
    · exact .inl (FinSet.mem_ofList.mp hc)
    · exact .inr (FinSet.mem_ofList.mp hc)

theorem isValid_resolved (hd : d.IsConsistent) : (d.resolved rules).IsValid where
  epsilon_not_mem_nonTerminals hn := hd.epsilon_not_mem_nonTerminals (FinSet.mem_ofList.mp hn)
  epsilon_not_mem_terminals ht := hd.epsilon_not_mem_terminals (FinSet.mem_ofList.mp ht)
  disjoint c hn ht := hd.disjoint c (FinSet.mem_ofList.mp hn) (FinSet.mem_ofList.mp ht)
  start_mem := FinSet.mem_ofList.mpr hd.start_mem
  lhs_mem A ps hps := by
    have hkey : A.toString ∈ d.productions.keys := by
      rw [← mem_keys_resolved h, FinMap.mem_keys]
      exact ⟨ps, hps⟩
    rcases hd.key_mem _ hkey with ⟨B, hAB, hB⟩
    rw [String.singleton_inj.mp hAB]
    exact FinSet.mem_ofList.mpr hB
  declares A p s hp hs := by
    rw [productionsFor_resolved h, List.mem_map] at hp
    rcases hp with ⟨rhs, hrhs, rfl⟩
    rcases Production.mem_parse.mp hs with ⟨c, hc, rfl⟩
    rcases Production.mem_letters.mp hc with ⟨htrim, hmem, hblank⟩
    rcases mem_alternatives.mp hrhs with ⟨texts, htexts, hrhs⟩
    apply declares_tag_iff.mpr
    rcases hd.letter_mem _ texts rhs c htexts hrhs htrim hmem hblank with hc | hc
    · exact .inl (FinSet.mem_ofList.mpr hc)
    · exact .inr (FinSet.mem_ofList.mpr hc)

end Resolved

theorem exists_mapM_eq_ok (hd : d.IsConsistent) (names : FinSet Char) :
    ∃ rules, d.productions.entries.mapM (entry names) = .ok rules := by
  cases h : d.productions.entries.mapM (entry names) with
  | ok rules => exact ⟨rules, rfl⟩
  | error e =>
    rcases exists_of_mapM_eq_error h with ⟨⟨key, texts⟩, he, hentry⟩
    rcases hd.key_mem key (FinMap.mem_keys.mpr ⟨texts, FinMap.mem_entries.mp he⟩) with ⟨A, hA, _⟩
    rw [entry_eq_ok_iff.mpr ⟨hA, rfl⟩] at hentry
    cases hentry

theorem exists_of_toGrammar_eq_ok (h : d.toGrammar = .ok g) :
    ∃ rules, d.productions.entries.mapM (entry (.ofList d.nonTerminals)) = .ok rules ∧
      (d.resolved rules).IsValid ∧ g = d.resolved rules := by
  unfold toGrammar at h
  rcases exists_of_bind_eq_ok h with ⟨rules, hrules, h⟩
  exact ⟨rules, hrules, checked_eq_ok_iff.mp h⟩

theorem toGrammar_eq_checked (h : d.productions.entries.mapM (entry (.ofList d.nonTerminals)) =
    .ok rules) : d.toGrammar = (d.resolved rules).checked := by
  unfold toGrammar
  dsimp only
  rw [h]
  rfl

theorem of_toGrammar_eq_unknownNonTerminal (h : d.toGrammar = .error (.unknownNonTerminal c)) :
    (c = d.start ∨ c.toString ∈ d.productions.keys) ∧ ¬ c ∈ d.nonTerminals := by
  cases hrules : d.productions.entries.mapM (entry (.ofList d.nonTerminals)) with
  | error e =>
    rcases exists_of_mapM_eq_error hrules with ⟨⟨key, texts⟩, _, hentry⟩
    rw [eq_malformedKey_of_entry hentry] at hrules
    unfold toGrammar at h
    dsimp only at h
    rw [hrules] at h
    cases h
  | ok rules =>
    rw [toGrammar_eq_checked hrules, checked_eq_error_iff] at h
    rcases isFirstUndeclared_of_isFault h with ⟨before, after, huses, _, hn⟩
    have hn : ¬ c ∈ d.nonTerminals := fun hc => hn (FinSet.mem_ofList.mpr hc)
    have hmem : .nonTerminal c ∈ (d.resolved rules).uses := by
      rw [huses]
      exact List.mem_append_right before List.mem_cons_self
    refine ⟨?_, hn⟩
    rcases mem_uses.mp hmem with hstart | ⟨A, hA, hc⟩ | ⟨A, p, hp, hc⟩
    · cases hstart
      exact .inl rfl
    · cases hc
      exact .inr ((mem_keys_resolved hrules).mp hA)
    · rw [productionsFor_resolved hrules, List.mem_map] at hp
      rcases hp with ⟨rhs, _, rfl⟩
      rcases Production.mem_parse.mp hc with ⟨_, _, htag⟩
      exact absurd (FinSet.mem_ofList.mp (Production.mem_of_tag_eq_nonTerminal htag)) hn

/--
A definition becomes a grammar if and only if it is consistent, and the alternatives become their
non-blank characters, in order, each of them tagged by what it is declared as. The start symbol and
the left-hand sides are the only non-terminals that are ever missed.
-/
theorem exists_toGrammar_eq_ok_iff (d : Definition) :
    ((∃ g, d.toGrammar = .ok g) ↔ d.IsConsistent) ∧
    (∀ g, d.toGrammar = .ok g →
      (∀ c, c ∈ g.nonTerminals ↔ c ∈ d.nonTerminals) ∧ (∀ c, c ∈ g.terminals ↔ c ∈ d.terminals) ∧
      g.start = d.start ∧ g.maxDepth = 100 ∧
      (∀ A, A ∈ g.productions.keys ↔ A.toString ∈ d.productions.keys) ∧
      ∀ A, g.productionsFor A = (d.alternatives A).map fun rhs =>
        ⟨(Production.letters rhs.toList).map (Production.tag g.nonTerminals)⟩) ∧
    ∀ c, d.toGrammar = .error (.unknownNonTerminal c) →
      (c = d.start ∨ c.toString ∈ d.productions.keys) ∧ ¬ c ∈ d.nonTerminals := by
  refine ⟨⟨?_, ?_⟩, ?_, ?_⟩
  · rintro ⟨g, h⟩
    rcases exists_of_toGrammar_eq_ok h with ⟨rules, hrules, hvalid, _⟩
    exact isConsistent_of_isValid_resolved hrules hvalid
  · intro hd
    rcases exists_mapM_eq_ok hd (.ofList d.nonTerminals) with ⟨rules, hrules⟩
    refine ⟨d.resolved rules, ?_⟩
    rw [toGrammar_eq_checked hrules, (isValid_resolved hrules hd).checked_eq]
  · intro g h
    rcases exists_of_toGrammar_eq_ok h with ⟨rules, hrules, _, rfl⟩
    refine ⟨fun c => FinSet.mem_ofList, fun c => FinSet.mem_ofList, rfl, rfl,
      fun A => mem_keys_resolved hrules, ?_⟩
    intro A
    rw [productionsFor_resolved hrules]
    apply List.map_congr_left
    intro rhs _
    apply Production.parse_eq
  · intro c
    apply of_toGrammar_eq_unknownNonTerminal

def untidy : Definition where
  nonTerminals := ['S', 'B', 'A', 'S']
  terminals := ['b', 'a', 'b']
  productions := .ofList [("S", [" a\tA ", " ε", ""]), ("B", [])]
  start := 'S'

theorem exists_toGrammar_eq_ok_iff_untidy :
    untidy.IsConsistent ∧
      (∃ g, untidy.toGrammar = .ok g ∧ 'B' ∈ g.productions.keys ∧
        g.productionsFor 'S' = [⟨[.terminal 'a', .nonTerminal 'A']⟩, .epsilon, .epsilon]) ∧
      { untidy with start := 'T' }.toGrammar = .error (.unknownNonTerminal 'T') ∧
      ¬ 'T' ∈ untidy.nonTerminals := by
  have hok : ∃ g, untidy.toGrammar = .ok g := ⟨_, rfl⟩
  have herror : { untidy with start := 'T' }.toGrammar = .error (.unknownNonTerminal 'T') := rfl
  refine ⟨(exists_toGrammar_eq_ok_iff untidy).1.mp hok, ?_, herror, ?_⟩
  · rcases hok with ⟨g, hg⟩
    rcases (exists_toGrammar_eq_ok_iff untidy).2.1 g hg with ⟨hn, _, _, _, hkeys, hproductions⟩
    have hnames : g.nonTerminals = .ofList ['S', 'B', 'A', 'S'] := by
      apply FinSet.ext
      intro c
      rw [hn, FinSet.mem_ofList]
      rfl
    refine ⟨g, hg, ?_, ?_⟩
    · rw [hkeys]
      exact FinSet.contains_iff.mp (by decide)
    · rw [hproductions, hnames]
      decide
  · exact ((exists_toGrammar_eq_ok_iff { untidy with start := 'T' }).2.2 'T' herror).2

end Definition

end Grammar

end RegLang
