import RegLang.Proofs.Automaton.ToGrammar

/-!
This module contains which letter each state gets as its name. The initial state gets `S` or, if `S`
is a symbol, the first free letter; the other states get the remaining free letters in order. The
same names come out if the states are gone through one by one and each takes the next letter that
is not used.
-/

namespace RegLang

namespace Automaton

variable {σ : Type} [Ordered σ] {A : Automaton σ} {names : FinMap σ Char} {q : σ} {c : Char}
  {cs : List Char} {states : List σ}

def IsStartName (A : Automaton σ) (c : Char) : Prop :=
  ('S' ∈ A.alphabet → A.freeLetters.head? = some c) ∧ (¬ 'S' ∈ A.alphabet → c = 'S')

def otherStates (A : Automaton σ) : FinSet σ :=
  A.states.filter fun state => compare state A.initial != .eq

theorem namingOrder_eq : A.namingOrder = A.initial :: A.otherStates.toList := rfl

theorem S_mem_freeLetters_iff : 'S' ∈ A.freeLetters ↔ ¬ 'S' ∈ A.alphabet := by
  have hS : 'S' ∈ Text.nameLetters := List.mem_append_left _ (by decide)
  rw [mem_freeLetters]
  simp [hS, epsilon]

theorem nameSupply_of_mem (hS : 'S' ∈ A.alphabet) : A.nameSupply = A.freeLetters :=
  if_neg fun hfree => S_mem_freeLetters_iff.mp hfree hS

theorem nameSupply_of_not_mem (hS : ¬ 'S' ∈ A.alphabet) :
    A.nameSupply = 'S' :: A.freeLetters.filter (· != 'S') :=
  if_pos (S_mem_freeLetters_iff.mpr hS)

theorem exists_nameSupply_eq (h : A.freeLetters ≠ []) :
    ∃ start, A.IsStartName start ∧
      A.nameSupply = start :: A.freeLetters.filter (· != start) := by
  by_cases hS : 'S' ∈ A.alphabet
  · rcases List.exists_cons_of_ne_nil h with ⟨c, cs, hcs⟩
    have hc : ¬ c ∈ cs := (List.nodup_cons.mp (hcs ▸ nodup_freeLetters)).1
    refine ⟨c, ⟨fun _ => by rw [hcs, List.head?_cons], absurd hS⟩, ?_⟩
    rw [nameSupply_of_mem hS, hcs, List.filter_cons_of_neg (by simp), List.filter_eq_self.mpr]
    intro d hd
    exact bne_iff_ne.mpr fun e => hc (e ▸ hd)
  · exact ⟨'S', ⟨fun h => absurd h hS, fun _ => rfl⟩, nameSupply_of_not_mem hS⟩

/--
What is kept while the letters are handed out one by one: the names given so far, the letters that
must not be given any more, and the letters that were not looked at yet.
-/
structure Handout (σ : Type) [Ordered σ] where
  names : FinMap σ Char
  used : FinSet Char
  pool : List Char

namespace Handout

variable {h : Handout σ}

def give (h : Handout σ) (state : σ) : Handout σ :=
  if h.names.contains state then
    h
  else
    match h.pool.dropWhile h.used.contains with
    | [] => { h with pool := [] }
    | name :: pool =>
      { names := h.names.insert state name, used := h.used.insert name, pool := pool }

def start (A : Automaton σ) : Handout σ :=
  let used := A.alphabet.insert epsilon
  if used.contains 'S' then
    { names := .empty, used := used, pool := Text.nameLetters }
  else
    { names := FinMap.empty.insert A.initial 'S'
      used := used.insert 'S'
      pool := Text.nameLetters }

def free (h : Handout σ) : List Char := h.pool.filter fun c => !h.used.contains c

theorem give_of_named (hq : h.names.contains q = true) : h.give q = h := if_pos hq

theorem filter_dropWhile_pool :
    ((h.pool.dropWhile h.used.contains).filter fun c => !h.used.contains c) = h.free := by
  unfold free
  induction h.pool with
  | nil => rfl
  | cons c pool ih =>
    rw [List.dropWhile_cons, List.filter_cons]
    cases hc : h.used.contains c with
    | true => exact ih
    | false => simp [hc]

theorem free_eq_of_dropWhile_eq_cons (hd : h.pool.dropWhile h.used.contains = c :: cs) :
    h.free = c :: cs.filter fun c => !h.used.contains c := by
  have hc : ¬ h.used.contains c = true := by
    have := List.head_dropWhile_not h.used.contains (l := h.pool) (by rw [hd]; nofun)
    simpa [hd] using this
  rw [← filter_dropWhile_pool, hd, List.filter_cons_of_pos (by simpa using hc)]

theorem give_of_free_eq_nil (hf : h.free = []) :
    (h.give q).names = h.names ∧ (h.give q).free = [] := by
  unfold give
  split
  · exact ⟨rfl, hf⟩
  · split
    · exact ⟨rfl, rfl⟩
    · rename_i hd
      rw [free_eq_of_dropWhile_eq_cons hd] at hf
      cases hf

theorem nodup_pool_give (hpool : h.pool.Nodup) : (h.give q).pool.Nodup := by
  unfold give
  split
  · exact hpool
  · split
    · exact .nil
    · rename_i hd
      have hnodup := hpool.sublist (List.dropWhile_sublist h.used.contains)
      rw [hd, List.nodup_cons] at hnodup
      exact hnodup.2

theorem give_of_free_eq_cons (hpool : h.pool.Nodup) (hq : h.names.contains q = false)
    (hf : h.free = c :: cs) :
    (h.give q).names = h.names.insert q c ∧ (h.give q).free = cs := by
  unfold give
  rw [hq, if_neg Bool.false_ne_true]
  split
  · rename_i hd
    rw [← filter_dropWhile_pool, hd] at hf
    cases hf
  · rename_i d pool hd
    rw [free_eq_of_dropWhile_eq_cons hd, List.cons.injEq] at hf
    have hnodup := hpool.sublist (List.dropWhile_sublist h.used.contains)
    rw [hd, List.nodup_cons] at hnodup
    refine ⟨by rw [hf.1], ?_⟩
    rw [← hf.2]
    apply List.filter_congr
    intro e he
    have hne : e ≠ d := fun h => hnodup.1 (h ▸ he)
    rw [Bool.eq_iff_iff]
    simp [hne]

theorem names_foldl_give (hpool : h.pool.Nodup) (hs : states.Nodup) :
    (states.foldl give h).names =
      ((states.filter fun q => !h.names.contains q).zip h.free).foldl
        (fun m e => m.insert e.1 e.2) h.names := by
  induction states generalizing h with
  | nil => rfl
  | cons q states ih =>
    rw [List.nodup_cons] at hs
    rw [List.foldl_cons, ih (nodup_pool_give hpool) hs.2]
    cases hq : h.names.contains q with
    | true => rw [give_of_named hq, List.filter_cons_of_neg (by simp [hq])]
    | false =>
      rw [List.filter_cons_of_pos (by simp [hq])]
      cases hf : h.free with
      | nil =>
        rcases give_of_free_eq_nil (q := q) hf with ⟨hnames, hfree⟩
        rw [hnames, hfree, List.zip_nil_right, List.zip_nil_right]
      | cons c cs =>
        rcases give_of_free_eq_cons hpool hq hf with ⟨hnames, hfree⟩
        -- The name of `q` is new, and `q` does not come again.
        have hunnamed : (states.filter fun p => !(h.names.insert q c).contains p) =
            states.filter fun p => !h.names.contains p := by
          apply List.filter_congr
          intro p hp
          have hne : p ≠ q := fun e => hs.1 (e ▸ hp)
          rw [FinMap.contains, FinMap.contains, FinMap.get?_insert_of_ne hne]
        rw [hnames, hfree, hunnamed, List.zip_cons_cons, List.foldl_cons]

theorem start_of_mem (hS : 'S' ∈ A.alphabet) :
    start A =
      { names := .empty, used := A.alphabet.insert epsilon, pool := Text.nameLetters } := by
  apply if_pos
  rw [FinSet.contains_iff, FinSet.mem_insert]
  exact .inr hS

theorem start_of_not_mem (hS : ¬ 'S' ∈ A.alphabet) :
    start A =
      { names := FinMap.empty.insert A.initial 'S', used := (A.alphabet.insert epsilon).insert 'S',
        pool := Text.nameLetters } := by
  apply if_neg
  rw [FinSet.contains_iff, FinSet.mem_insert, not_or]
  exact ⟨by decide, hS⟩

theorem free_start_of_mem (hS : 'S' ∈ A.alphabet) : (start A).free = A.freeLetters := by
  rw [start_of_mem hS]
  apply List.filter_congr
  intro c _
  rw [Bool.eq_iff_iff]
  simp [not_or, and_comm]

theorem free_start_of_not_mem (hS : ¬ 'S' ∈ A.alphabet) :
    (start A).free = A.freeLetters.filter (· != 'S') := by
  rw [start_of_not_mem hS, freeLetters, List.filter_filter]
  apply List.filter_congr
  intro c _
  rw [Bool.eq_iff_iff]
  simp [not_or, and_comm]

theorem exists_give_start (h : A.freeLetters ≠ []) :
    ∃ c cs, A.nameSupply = c :: cs ∧
      ((start A).give A.initial).names = FinMap.empty.insert A.initial c ∧
        ((start A).give A.initial).free = cs ∧ ((start A).give A.initial).pool.Nodup := by
  rcases exists_nameSupply_eq h with ⟨c, hc, hsupply⟩
  refine ⟨c, _, hsupply, ?_⟩
  by_cases hS : 'S' ∈ A.alphabet
  · rw [nameSupply_of_mem hS] at hsupply
    have hpool : (start A).pool.Nodup := by
      rw [start_of_mem hS]
      exact Text.nodup_nameLetters
    have hnames : (start A).names = .empty := by
      rw [start_of_mem hS]
    rcases give_of_free_eq_cons hpool (by rw [hnames]; rfl)
      ((free_start_of_mem hS).trans hsupply) with ⟨hgive, hfree⟩
    rw [hnames] at hgive
    exact ⟨hgive, hfree, nodup_pool_give hpool⟩
  · rw [nameSupply_of_not_mem hS, List.cons.injEq] at hsupply
    have hnamed : (start A).names.contains A.initial = true := by
      rw [start_of_not_mem hS, FinMap.contains_iff]
      exact ⟨'S', FinMap.get?_insert_self⟩
    rw [give_of_named hnamed, free_start_of_not_mem hS, start_of_not_mem hS]
    exact ⟨by rw [hsupply.1], hsupply.2, Text.nodup_nameLetters⟩

end Handout

def handOut (A : Automaton σ) : FinMap σ Char :=
  ((A.initial :: A.states.toList).foldl Handout.give (.start A)).names

theorem handOut_eq (h : A.freeLetters ≠ []) :
    A.handOut = .ofList (A.namingOrder.zip A.nameSupply) := by
  rcases Handout.exists_give_start h with ⟨c, cs, hsupply, hnames, hfree, hpool⟩
  have hunnamed : (A.states.toList.filter fun q => !(FinMap.empty.insert A.initial c).contains q) =
      A.otherStates.toList := by
    apply List.filter_congr
    intro q _
    rw [Bool.eq_iff_iff, compare_bne_eq_iff, Bool.not_eq_true', ← Bool.not_eq_true, not_iff_not]
    by_cases hq : q = A.initial
    · simp [hq, FinMap.contains, FinMap.get?_insert_self]
    · simp [hq, FinMap.contains, FinMap.get?_insert_of_ne hq, FinMap.get?_empty]
  rw [handOut, List.foldl_cons, Handout.names_foldl_give hpool (FinSet.nodup_toList _), hnames,
    hfree, hunnamed, namingOrder_eq, hsupply]
  rfl

structure IsInOrder (A : Automaton σ) (names : FinMap σ Char) (start : Char) : Prop where
  isStartName : A.IsStartName start
  initial : names.get? A.initial = some start
  others : A.otherStates.toList.map names.get? =
    ((A.freeLetters.filter (· != start)).take A.otherStates.size).map some

theorem ne_nil_freeLetters_of_stateNames? (h : A.stateNames? = some names) :
    A.freeLetters ≠ [] := by
  have hlen := (stateNames?_eq_some_iff.mp h).1
  rw [perm_nameSupply.length_eq, namingOrder_eq, List.length_cons] at hlen
  exact List.ne_nil_of_length_pos (by omega)

theorem exists_isInOrder (h : A.stateNames? = some names) : ∃ start, A.IsInOrder names start := by
  rcases stateNames?_eq_some_iff.mp h with ⟨hlen, hnames⟩
  rcases exists_nameSupply_eq (ne_nil_freeLetters_of_stateNames? h) with ⟨start, hs, hsupply⟩
  have hmap := FinMap.map_get?_ofList_zip nodup_namingOrder hlen
  rw [← hnames, namingOrder_eq, hsupply, List.map_cons, List.length_cons, List.take_succ_cons,
    List.map_cons, List.cons.injEq] at hmap
  exact ⟨start, hs, hmap.1, hmap.2⟩

/--
If the free letters suffice, every state has a free letter of its own as its name, the names are
given in order, one state after the other, and the conversion to a grammar finds the names of all
states that it needs.
-/
theorem exists_stateNames?_isInOrder_and_toGrammar? (hA : A.IsValid)
    (hn : A.states.size ≤ A.freeLetters.length) :
    ∃ names start, A.stateNames? = some names ∧ A.handOut = names ∧ A.IsNaming names ∧
      A.IsInOrder names start ∧
        ∃ g, A.toGrammar? = some g ∧ g.start = start ∧
          ∀ q a t, A.Edge q a t → (∃ c, names.get? q = some c) ∧ ∃ c, names.get? t = some c := by
  rcases exists_toGrammar? hA hn with ⟨g, hg⟩
  rcases toGrammar?_eq_some_iff.mp hg with ⟨names, first, hnames, hfirst, hstart⟩
  have hnaming := isNaming_of_stateNames? hA hnames
  rcases exists_isInOrder hnames with ⟨start, horder⟩
  have hhanded : A.handOut = names := by
    rw [handOut_eq (ne_nil_freeLetters_of_stateNames? hnames)]
    exact (stateNames?_eq_some_iff.mp hnames).2.symm
  refine ⟨names, start, hnames, hhanded, hnaming, horder, g, hg, ?_, ?_⟩
  · rw [← hstart, ← Option.some.injEq, ← hfirst]
    exact horder.initial
  · intro q a t e
    rcases hA.mem_of_edge e with ⟨hq, _, ht⟩
    exact ⟨hnaming.exists_name q hq, hnaming.exists_name t ht⟩

def lettered : Automaton Int where
  states := .ofList [-1, 0, 1, 2]
  alphabet := .ofList ['B', 'S', 'Ω']
  transitions := .ofTriples [(1, 'S', 0), (0, 'B', 2), (2, 'Ω', -1), (-1, 'Ω', 1)]
  initial := 1
  finals := .ofList [2]

theorem isValid_lettered : lettered.IsValid := by
  apply isValid_of_checked (A := lettered)
  rfl

theorem size_lettered_le : lettered.states.size ≤ lettered.freeLetters.length := by
  apply Nat.le_trans _ length_free_capitals_le
  decide

theorem exists_stateNames?_isInOrder_and_toGrammar?_lettered :
    lettered.IsValid ∧ lettered.states.size ≤ lettered.freeLetters.length ∧
      ∃ names start, lettered.stateNames? = some names ∧ lettered.handOut = names ∧
        lettered.IsNaming names ∧ lettered.IsInOrder names start ∧
          ∃ g, lettered.toGrammar? = some g ∧ g.start = start ∧
            ∀ q a t, lettered.Edge q a t →
              (∃ c, names.get? q = some c) ∧ ∃ c, names.get? t = some c :=
  ⟨isValid_lettered, size_lettered_le,
    exists_stateNames?_isInOrder_and_toGrammar? isValid_lettered size_lettered_le⟩

example : lettered.handOut.entries = [(-1, 'C'), (0, 'D'), (1, 'A'), (2, 'E')] := by
  decide +kernel

end Automaton

end RegLang
