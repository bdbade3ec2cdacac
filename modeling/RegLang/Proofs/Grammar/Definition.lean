import RegLang.Proofs.Grammar.Acceptance
import RegLang.Proofs.Json.Reader
import RegLang.Proofs.Production.Blank

/-!
This module contains the round trip of definitions of grammars through JSON text, and what comes
back when a grammar is written as a definition and read again: the grammar without the blanks in its
productions.
-/

namespace RegLang

theorem Ordered.lt_toString_iff {c d : Char} : Lt c.toString d.toString ↔ Lt c d := by
  have hs : compare c.toString d.toString = compareOfLessAndEq c.toString d.toString := rfl
  have hc : compare c d = compareOfLessAndEq c d := rfl
  unfold Lt
  rw [hs, hc, compareOfLessAndEq_eq_lt, compareOfLessAndEq_eq_lt, String.lt_iff]
  simp [Char.toString, List.cons_lt_cons_iff]

namespace Grammar

namespace Definition

open Json.Reader

theorem reads_toJson (d : Definition) : reader.Reads d.toJson d := by
  apply Fills.reads_record
    (d := ⟨some d.nonTerminals, some d.terminals, some d.productions.entries, some d.start⟩)
  · apply Fills.cons rfl rfl (reads_list (fun _ => reads_char) _).readOf
    apply Fills.cons rfl rfl (reads_list (fun _ => reads_char) _).readOf
    apply Fills.cons rfl rfl (reads_object (reads_list fun _ => reads_string) _).readOf
    apply Fills.cons rfl rfl reads_char.readOf
    apply Fills.nil
  · unfold Draft.finish
    simp only [Option.bind_eq_bind, Option.bind_some, FinMap.ofList_entries]
    rfl

theorem ofJson_toJson (d : Definition) : ofJson d.toJson.pretty = .ok d :=
  d.reads_toJson.read_pretty

end Definition

variable {g : Grammar} {s : Symbol} {A : Char} {p : Production}

theorem IsValid.tag_char (hg : g.IsValid) (hs : g.Declares s) :
    Production.tag g.nonTerminals s.char = s := by
  rw [Production.tag_char_eq_self_iff]
  cases s with
  | nonTerminal c => exact ⟨nofun, fun h => absurd hs h⟩
  | terminal c => exact ⟨fun _ h => hg.disjoint c h hs, fun _ => rfl⟩

theorem IsValid.char_ne_epsilon (hg : g.IsValid) (hs : g.Declares s) : s.char ≠ epsilon := by
  intro e
  cases s with
  | nonTerminal c => exact hg.epsilon_not_mem_nonTerminals (e ▸ hs)
  | terminal c => exact hg.epsilon_not_mem_terminals (e ▸ hs)

theorem IsValid.parse_text (hg : g.IsValid) (hp : p ∈ g.productionsFor A) :
    Production.parse g.nonTerminals p.text = p.withoutBlanks := by
  apply Production.parse_text
  · apply Production.map_char_ne_epsilon
    intro s hs
    exact hg.char_ne_epsilon (hg.declares A p s hp (Symbol.mem_eraseBlanks.mp hs).1)
  · intro s hs
    exact hg.tag_char (hg.declares A p s hp hs)

def withoutBlanks (g : Grammar) : Grammar where
  nonTerminals := g.nonTerminals
  terminals := g.terminals
  productions := g.productions.filterMap fun _ ps => some (ps.map .withoutBlanks)
  start := g.start

theorem productionsFor_withoutBlanks :
    g.withoutBlanks.productionsFor A = (g.productionsFor A).map .withoutBlanks := by
  unfold productionsFor withoutBlanks
  rw [FinMap.get?_filterMap]
  cases g.productions.get? A <;> rfl

theorem IsValid.withoutBlanks (hg : g.IsValid) : g.withoutBlanks.IsValid where
  epsilon_not_mem_nonTerminals := hg.epsilon_not_mem_nonTerminals
  epsilon_not_mem_terminals := hg.epsilon_not_mem_terminals
  disjoint := hg.disjoint
  start_mem := hg.start_mem
  lhs_mem A ps h := by
    rw [Grammar.withoutBlanks, FinMap.get?_filterMap, Option.bind_eq_some_iff] at h
    rcases h with ⟨ps', h, _⟩
    exact hg.lhs_mem A ps' h
  declares A p s hp hs := by
    rw [productionsFor_withoutBlanks, List.mem_map] at hp
    rcases hp with ⟨p', hp', e⟩
    rw [← e, Production.withoutBlanks, Symbol.mem_eraseBlanks] at hs
    exact hg.declares A p' s hp' hs.1

namespace Definition

open Json.Reader

theorem entries_ofGrammar :
    (ofGrammar g).productions.entries =
      g.productions.entries.map fun e => (e.1.toString, e.2.map toString) := by
  apply FinMap.entries_ofList
  rw [List.pairwise_map]
  exact g.productions.increasing.imp Ordered.lt_toString_iff.mpr

theorem entry_toString (hg : g.IsValid) {ps : List Production}
    (h : g.productions.get? A = some ps) :
    entry g.nonTerminals (A.toString, ps.map toString) = .ok (A, ps.map .withoutBlanks) := by
  have hps : (ps.map toString).map (fun rhs => Production.parse g.nonTerminals rhs.toList) =
      ps.map .withoutBlanks := by
    rw [List.map_map]
    apply List.map_congr_left
    intro p hp
    have htext : (toString p).toList = p.text := String.toList_ofList
    rw [Function.comp_apply, htext, hg.parse_text (mem_productionsFor.mpr ⟨ps, h, hp⟩)]
  exact entry_eq_ok_iff.mpr ⟨rfl, hps.symm⟩

theorem entries_withoutBlanks :
    g.withoutBlanks.productions.entries =
      g.productions.entries.map fun e => (e.1, e.2.map .withoutBlanks) := by
  unfold withoutBlanks FinMap.filterMap
  exact congrFun List.filterMap_eq_map g.productions.entries

theorem toGrammar_ofGrammar (hg : g.IsValid) :
    (ofGrammar g).toGrammar = .ok g.withoutBlanks := by
  have hterminals : FinSet.ofList (ofGrammar g).terminals = g.terminals := FinSet.ofList_toList _
  have hnames : FinSet.ofList (ofGrammar g).nonTerminals = g.nonTerminals := FinSet.ofList_toList _
  have hentries : (ofGrammar g).productions.entries.mapM (entry g.nonTerminals) =
      .ok g.withoutBlanks.productions.entries := by
    rw [entries_ofGrammar, entries_withoutBlanks]
    apply mapM_eq_ok_of_map_eq
    rw [List.map_map, List.map_map]
    apply List.map_congr_left
    intro e he
    exact entry_toString hg (FinMap.mem_entries.mp he)
  unfold toGrammar
  rw [hterminals, hnames]
  dsimp only
  rw [hentries, ok_bind, FinMap.ofList_entries]
  exact hg.withoutBlanks.checked_eq

end Definition

theorem reload_eq (hg : g.IsValid) : g.reload = .ok g.withoutBlanks := by
  unfold reload
  rw [Definition.ofJson_toJson, Json.Reader.ok_bind, Definition.toGrammar_ofGrammar hg]

end Grammar

end RegLang
