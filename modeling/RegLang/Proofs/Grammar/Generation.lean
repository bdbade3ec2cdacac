import Mathlib.Algebra.Group.Nat.Defs
import RegLang.Grammar.Generation
import RegLang.Grammar.Tree
import RegLang.Grammar.Validity
import RegLang.Proofs.WordSource

/-!
This module contains what generation reaches. A generation that keeps the depth limit and meets no
dead end makes the expansions of a derivation tree that is no higher than the limit, and for every
such tree there are words that make the generation follow it.
-/

namespace RegLang

namespace Grammar

variable {g : Grammar} {A : Char} {depth drawn : Nat} {symbols : List Symbol} {source : WordSource}
  {rest : List UInt32} {t : Tree} {ts : List Tree} {w : List Char}

namespace Tree

mutual

def expansions : Tree → List Expansion
  | leaf _ => []
  | node A children => .applied A ⟨children.map root⟩ :: allExpansions children

def allExpansions : List Tree → List Expansion
  | [] => []
  | t :: ts => expansions t ++ allExpansions ts

end

mutual

def words (g : Grammar) : Tree → List UInt32
  | leaf _ => []
  | node A children =>
    WordSource.leastWord (g.productionsFor A).length
        ((g.productionsFor A).idxOf ⟨children.map root⟩) ::
      allWords g children

def allWords (g : Grammar) : List Tree → List UInt32
  | [] => []
  | t :: ts => words g t ++ allWords g ts

end

mutual

theorem deadEnd_not_mem_expansions : ∀ t : Tree, ¬ .deadEnd A ∈ t.expansions
  | leaf _ => by simp [expansions]
  | node _ children => by simp [expansions, deadEnd_not_mem_allExpansions children]

theorem deadEnd_not_mem_allExpansions : ∀ ts : List Tree, ¬ .deadEnd A ∈ allExpansions ts
  | [] => by simp [allExpansions]
  | t :: ts => by
    simp [allExpansions, deadEnd_not_mem_expansions t, deadEnd_not_mem_allExpansions ts]

end

theorem height_le_maxHeight (h : t ∈ ts) : t.height ≤ maxHeight ts := by
  induction ts with
  | nil => cases h
  | cons u ts ih =>
    unfold maxHeight
    rcases List.mem_cons.mp h with h | h
    · rw [h]
      exact Nat.le_max_left _ _
    · exact Nat.le_trans (ih h) (Nat.le_max_right _ _)

end Tree

theorem expand_succ_of_nil (h : g.productionsFor A = []) :
    g.expand (depth + 1) A source = ⟨[.deadEnd A], [], source, true⟩ := by
  unfold expand
  rw [h, WordSource.choose_nil]

theorem expand_succ_of_choose {p : Production} {next : WordSource}
    (h : source.choose (g.productionsFor A) = (some p, next)) :
    g.expand (depth + 1) A source =
      { Generation.ofSymbols (g.expand depth) p.symbols next with
        expansions := .applied A p ::
          (Generation.ofSymbols (g.expand depth) p.symbols next).expansions } := by
  conv => lhs; unfold expand
  rw [h]

theorem expand_succ_cases (g : Grammar) (A : Char) (source : WordSource) :
    (g.productionsFor A = [] ∧
      ∀ depth, g.expand (depth + 1) A source = ⟨[.deadEnd A], [], source, true⟩) ∨
    ∃ p next, p ∈ g.productionsFor A ∧
      ∀ depth, g.expand (depth + 1) A source =
        { Generation.ofSymbols (g.expand depth) p.symbols next with
          expansions := .applied A p ::
            (Generation.ofSymbols (g.expand depth) p.symbols next).expansions } := by
  by_cases hps : g.productionsFor A = []
  · exact .inl ⟨hps, fun _ => expand_succ_of_nil hps⟩
  · rcases WordSource.choose_of_ne_nil source hps with ⟨p, next, hp, hchoose⟩
    exact .inr ⟨p, next, hp, fun _ => expand_succ_of_choose hchoose⟩

namespace Generation

variable {expand : Char → WordSource → Generation}

structure IsFull (r : Generation) : Prop where
  completed : r.completed = true
  deadEnd_not_mem : ∀ A, ¬ .deadEnd A ∈ r.expansions

structure IsOfTrees (g : Grammar) (depth : Nat) (r : Generation) (ts : List Tree) : Prop where
  isOf : ∀ t, t ∈ ts → t.IsOf g
  maxHeight_le : Tree.maxHeight ts ≤ depth
  expansions : r.expansions = Tree.allExpansions ts
  text : r.text = Tree.yields ts

theorem ofSymbols_nonTerminal_of_completed (h : (expand A source).completed = true) :
    ofSymbols expand (.nonTerminal A :: symbols) source =
      { ofSymbols expand symbols (expand A source).source with
        expansions := (expand A source).expansions ++
          (ofSymbols expand symbols (expand A source).source).expansions
        text := (expand A source).text ++
          (ofSymbols expand symbols (expand A source).source).text } := by
  conv => lhs; unfold ofSymbols
  exact if_pos h

theorem ofSymbols_nonTerminal_of_not_completed (h : (expand A source).completed = false) :
    ofSymbols expand (.nonTerminal A :: symbols) source = expand A source := by
  unfold ofSymbols
  dsimp only
  rw [h, if_neg Bool.false_ne_true]

theorem completed_of_ofSymbols_nonTerminal
    (h : (ofSymbols expand (.nonTerminal A :: symbols) source).completed = true) :
    (expand A source).completed = true := by
  unfold ofSymbols at h
  dsimp only at h
  split at h
  · assumption
  · exact h

theorem ofSymbols_epsilon :
    ofSymbols expand Production.epsilon.symbols source = ⟨[], [], source, true⟩ := rfl

theorem ofSymbols_letter {a : Char} :
    ofSymbols expand (Production.letter a).symbols source = ⟨[], [a], source, true⟩ := rfl

theorem ofSymbols_step {a B : Char} :
    ofSymbols expand (Production.step a B).symbols source =
      { expand B source with text := a :: (expand B source).text } := by
  unfold Production.step ofSymbols
  cases h : (expand B source).completed with
  | true =>
    rw [ofSymbols_nonTerminal_of_completed h]
    simp [ofSymbols, h]
  | false =>
    unfold ofSymbols
    simp [h]

theorem IsFull.exists_trees
    (hexpand : ∀ A source, (expand A source).IsFull →
      ∃ t, t.root = .nonTerminal A ∧ (expand A source).IsOfTrees g depth [t])
    (h : (ofSymbols expand symbols source).IsFull) :
    ∃ ts, ts.map Tree.root = symbols ∧
      (ofSymbols expand symbols source).IsOfTrees g depth ts := by
  induction symbols generalizing source with
  | nil =>
    refine ⟨[], rfl, ?_⟩
    constructor
    · simp
    · exact Nat.zero_le _
    · rfl
    · rfl
  | cons s symbols ih =>
    cases s with
    | terminal c =>
      have hrest : (ofSymbols expand symbols source).IsFull := ⟨h.completed, h.deadEnd_not_mem⟩
      rcases ih hrest with ⟨ts, hroots, hts⟩
      refine ⟨.leaf c :: ts, by rw [List.map_cons, hroots]; rfl, ?_⟩
      constructor
      · intro t ht
        cases ht with
        | head => exact .leaf c
        | tail _ ht => exact hts.isOf t ht
      · simpa [Tree.maxHeight, Tree.height] using hts.maxHeight_le
      · exact hts.expansions
      · exact congrArg (c :: ·) hts.text
    | nonTerminal A =>
      have hcompleted := completed_of_ofSymbols_nonTerminal h.completed
      rw [ofSymbols_nonTerminal_of_completed hcompleted] at h ⊢
      have hfirst : (expand A source).IsFull := by
        refine ⟨hcompleted, ?_⟩
        intro B hB
        exact h.deadEnd_not_mem B (List.mem_append_left _ hB)
      have hrest : (ofSymbols expand symbols (expand A source).source).IsFull := by
        refine ⟨h.completed, ?_⟩
        intro B hB
        exact h.deadEnd_not_mem B (List.mem_append_right _ hB)
      rcases hexpand A source hfirst with ⟨t, hroot, ht⟩
      rcases ih hrest with ⟨ts, hroots, hts⟩
      refine ⟨t :: ts, by rw [List.map_cons, hroot, hroots], ?_⟩
      constructor
      · intro u hu
        cases hu with
        | head => exact ht.isOf t List.mem_cons_self
        | tail _ hu => exact hts.isOf u hu
      · have := ht.maxHeight_le
        have := hts.maxHeight_le
        simp only [Tree.maxHeight] at *
        omega
      · dsimp only
        rw [ht.expansions, hts.expansions]
        simp [Tree.allExpansions]
      · dsimp only
        rw [ht.text, hts.text]
        simp [Tree.yields]

end Generation

theorem exists_tree_of_isFull (h : (g.expand depth A source).IsFull) :
    ∃ t, t.root = .nonTerminal A ∧ (g.expand depth A source).IsOfTrees g depth [t] := by
  induction depth generalizing A source with
  | zero => cases h.completed
  | succ depth ih =>
    rcases expand_succ_cases g A source with ⟨_, hexpand⟩ | ⟨p, next, hp, hexpand⟩
    · rw [hexpand] at h
      exact absurd List.mem_cons_self (h.deadEnd_not_mem A)
    · rw [hexpand] at h ⊢
      have hrest : (Generation.ofSymbols (g.expand depth) p.symbols next).IsFull := by
        refine ⟨h.completed, ?_⟩
        intro B hB
        exact h.deadEnd_not_mem B (List.mem_cons_of_mem _ hB)
      rcases hrest.exists_trees (fun _ _ => ih) with ⟨ts, hroots, hts⟩
      refine ⟨.node A ts, rfl, ?_⟩
      constructor
      · intro t ht
        rw [List.mem_singleton.mp ht]
        apply Tree.IsOf.node
        · rwa [hroots]
        · exact hts.isOf
      · have := hts.maxHeight_le
        simp only [Tree.maxHeight, Tree.height]
        omega
      · dsimp only
        rw [hts.expansions]
        simp [Tree.allExpansions, Tree.expansions, hroots]
      · dsimp only
        rw [hts.text]
        simp [Tree.yields, Tree.yield]

namespace Tree

def IsFollowed (g : Grammar) (depth : Nat) (t : Tree) : Prop :=
  ∀ symbols rest drawn,
    Generation.ofSymbols (g.expand depth) (t.root :: symbols) ⟨t.words g ++ rest, drawn⟩ =
      let r := Generation.ofSymbols (g.expand depth) symbols ⟨rest, drawn + (t.words g).length⟩
      { r with expansions := t.expansions ++ r.expansions, text := t.yield ++ r.text }

theorem ofSymbols_allWords (h : ∀ t, t ∈ ts → t.IsFollowed g depth) :
    Generation.ofSymbols (g.expand depth) (ts.map root) ⟨allWords g ts ++ rest, drawn⟩ =
      ⟨allExpansions ts, yields ts, ⟨rest, drawn + (allWords g ts).length⟩, true⟩ := by
  induction ts generalizing drawn with
  | nil => rfl
  | cons t ts ih =>
    unfold allWords
    rw [List.map_cons, List.append_assoc, h t List.mem_cons_self]
    rw [ih (fun u hu => h u (List.mem_cons_of_mem t hu))]
    simp [allExpansions, yields, Nat.add_assoc]

theorem choose_words {p : Production} (hn : (g.productionsFor A).length < 2 ^ 32)
    (hp : p ∈ g.productionsFor A) :
    WordSource.choose
        ⟨WordSource.leastWord (g.productionsFor A).length ((g.productionsFor A).idxOf p) :: rest,
          drawn⟩ (g.productionsFor A) =
      (some p, ⟨rest, drawn + 1⟩) := by
  have hi := List.idxOf_lt_length_of_mem hp
  rw [WordSource.choose_leastWord hi hn, List.getElem_idxOf hi]

theorem expand_words (hn : (g.productionsFor A).length < 2 ^ 32)
    (hp : ⟨ts.map root⟩ ∈ g.productionsFor A) (hdepth : (node A ts).height ≤ depth)
    (h : ∀ t, t ∈ ts → ∀ depth, t.height ≤ depth → t.IsFollowed g depth)
    (rest : List UInt32) (drawn : Nat) :
    g.expand depth A ⟨(node A ts).words g ++ rest, drawn⟩ =
      ⟨(node A ts).expansions, (node A ts).yield,
        ⟨rest, drawn + ((node A ts).words g).length⟩, true⟩ := by
  cases depth with
  | zero => cases hdepth
  | succ depth =>
    have hts : ∀ t, t ∈ ts → t.IsFollowed g depth := by
      intro t ht
      apply h t ht
      apply Nat.le_trans (height_le_maxHeight ht)
      exact Nat.le_of_succ_le_succ hdepth
    unfold words
    rw [List.cons_append, expand_succ_of_choose (choose_words hn hp), ofSymbols_allWords hts]
    simp [expansions, yield, Nat.add_assoc, Nat.add_comm 1]

theorem IsOf.isFollowed (hg : ∀ A, (g.productionsFor A).length < 2 ^ 32) (ht : t.IsOf g)
    (hdepth : t.height ≤ depth) : t.IsFollowed g depth := by
  induction ht generalizing depth with
  | leaf a =>
    intro symbols rest drawn
    rfl
  | @node A children hp _ ih =>
    intro symbols rest drawn
    have hexpand := expand_words (hg A) hp hdepth (fun t ht _ hd => ih t ht hd) rest drawn
    unfold root
    rw [Generation.ofSymbols_nonTerminal_of_completed (by rw [hexpand]), hexpand]

end Tree

theorem generate_eq_ok_iff :
    g.generate source = .ok w ↔
      (g.generation source).completed = true ∧ (g.generation source).text = w := by
  unfold generate
  dsimp only
  split
  · rename_i h
    simp [h]
  · rename_i h
    simp [h]

theorem generate_eq_error_iff {e : Error} :
    g.generate source = .error e ↔
      (g.generation source).completed = false ∧ e = .depthExceeded g.maxDepth := by
  unfold generate
  dsimp only
  cases (g.generation source).completed <;> simp [eq_comm]

theorem generationEvents_of_not_completed {r : Generation} (h : r.completed = false) :
    g.generationEvents r = .generationStarted g.start :: r.expansions.map Expansion.event := by
  unfold generationEvents
  rw [h, if_neg Bool.false_ne_true, List.append_nil]

theorem deadEnd_mem_generationEvents {r : Generation} :
    .deadEnd A ∈ g.generationEvents r ↔ .deadEnd A ∈ r.expansions := by
  unfold generationEvents
  rw [List.mem_append, List.mem_cons, List.mem_map]
  constructor
  · intro h
    rcases h with (h | ⟨e, he, h⟩) | h
    · cases h
    · cases e with
      | applied B p => cases h
      | deadEnd B =>
        cases h
        exact he
    · split at h
      · cases List.mem_singleton.mp h
      · cases h
  · intro h
    exact .inl (.inr ⟨_, h, rfl⟩)

theorem exists_generate_iff_exists_tree (g : Grammar) (w : List Char)
    (hg : ∀ A, (g.productionsFor A).length < 2 ^ 32) :
    (∃ source : WordSource, g.generate source = .ok w ∧
        ∀ A, ¬ .deadEnd A ∈ g.generationEvents (g.generation source)) ↔
      ∃ t : Tree, t.IsOf g ∧ t.root = .nonTerminal g.start ∧ t.yield = w ∧
        t.height ≤ g.maxDepth := by
  simp only [generate_eq_ok_iff, deadEnd_mem_generationEvents]
  constructor
  · rintro ⟨source, ⟨hcompleted, htext⟩, hdead⟩
    rcases exists_tree_of_isFull ⟨hcompleted, hdead⟩ with ⟨t, hroot, ht⟩
    refine ⟨t, ht.isOf t List.mem_cons_self, hroot, ?_, ?_⟩
    · rw [← htext]
      unfold generation
      rw [ht.text]
      simp [Tree.yields]
    · simpa [Tree.maxHeight] using ht.maxHeight_le
  · rintro ⟨t, ht, hroot, hw, hdepth⟩
    cases ht with
    | leaf a => cases hroot
    | @node A children hp hchildren =>
      have hA : A = g.start := Symbol.nonTerminal.inj hroot
      have hexpand := Tree.expand_words (hg A) hp hdepth
        (fun t ht _ hd => (hchildren t ht).isFollowed hg hd) [] 0
      rw [hA] at hexpand
      refine ⟨⟨(Tree.node g.start children).words g ++ [], 0⟩, ?_⟩
      unfold generation
      rw [hexpand]
      refine ⟨⟨rfl, hA ▸ hw⟩, ?_⟩
      intro B
      apply Tree.deadEnd_not_mem_expansions

theorem length_productionsFor_lt {n : Nat} (hn : 0 < n)
    (h : ∀ ps, ps ∈ g.productions.values → ps.length < n) : (g.productionsFor A).length < n := by
  unfold productionsFor
  cases hA : g.productions.get? A with
  | none => exact hn
  | some ps => exact h ps (FinMap.mem_values.mpr ⟨A, hA⟩)

def bracketed : Grammar where
  nonTerminals := .ofList ['S', 'T', 'U']
  terminals := .ofList ['a', 'b']
  productions := .ofList
    [('S', [⟨[.terminal 'a', .nonTerminal 'S', .nonTerminal 'T']⟩, .epsilon, ⟨[.nonTerminal 'U']⟩]),
     ('T', [.letter 'b'])]
  start := 'S'
  maxDepth := 2

theorem exists_generate_iff_exists_tree_bracketed :
    (∀ A, (bracketed.productionsFor A).length < 2 ^ 32) ∧
      ((∃ source : WordSource, bracketed.generate source = .ok ['a', 'b'] ∧
          ∀ A, ¬ .deadEnd A ∈ bracketed.generationEvents (bracketed.generation source)) ↔
        ∃ t : Tree, t.IsOf bracketed ∧ t.root = .nonTerminal bracketed.start ∧
          t.yield = ['a', 'b'] ∧ t.height ≤ bracketed.maxDepth) := by
  have hg : ∀ A, (bracketed.productionsFor A).length < 2 ^ 32 := by
    intro A
    apply length_productionsFor_lt (by decide)
    decide
  exact ⟨hg, exists_generate_iff_exists_tree bracketed ['a', 'b'] hg⟩

end Grammar

end RegLang
