import RegLang.Grammar.Validity

/-!
This module contains what the check of a grammar reports. It refuses a grammar if and only if the
parts do not agree with each other, and it always blames the same fault: `ε` as a symbol, then the
least character that is a symbol of both kinds, then the first symbol that is used as what it is not
declared as.
-/

namespace RegLang

theorem findSome?_flatMap {α β γ : Type} (f : α → List β) (p : β → Option γ) (as : List α) :
    (as.flatMap f).findSome? p = as.findSome? fun a => (f a).findSome? p := by
  induction as with
  | nil => rfl
  | cons a as ih =>
    rw [List.flatMap_cons, List.findSome?_append, ih, List.findSome?_cons]
    cases (f a).findSome? p with
    | none => apply Option.none_or
    | some c => apply Option.some_or

namespace Grammar

variable {g h : Grammar} {e : Error} {s : Symbol} {c : Char}

def DeclaresEpsilon (g : Grammar) : Prop := epsilon ∈ g.nonTerminals ∨ epsilon ∈ g.terminals

def Overlaps (g : Grammar) (c : Char) : Prop := c ∈ g.nonTerminals ∧ c ∈ g.terminals

def uses (g : Grammar) : List Symbol :=
  .nonTerminal g.start :: g.productions.entries.flatMap fun e =>
    .nonTerminal e.1 :: e.2.flatMap Production.symbols

def IsFirstUndeclared (g : Grammar) (s : Symbol) : Prop :=
  ∃ before after, g.uses = before ++ s :: after ∧ (∀ t, t ∈ before → g.Declares t) ∧
    ¬ g.Declares s

def undeclared : Symbol → Error
  | .terminal c => .unknownSymbol c
  | .nonTerminal c => .unknownNonTerminal c

/--
Whether an error names the first fault of a grammar. A fault counts only if there is none of the
kinds before it.
-/
inductive IsFault (g : Grammar) : Error → Prop where
  | reserved : g.DeclaresEpsilon → IsFault g (.reservedSymbol epsilon)
  | overlapping {c : Char} : ¬ g.DeclaresEpsilon → Ordered.IsLeast g.Overlaps c →
    IsFault g (.overlappingSymbol c)
  | undeclared {s : Symbol} : ¬ g.DeclaresEpsilon → (∀ c, ¬ g.Overlaps c) →
    g.IsFirstUndeclared s → IsFault g (undeclared s)

theorem contains_epsilon_iff :
    (g.nonTerminals.contains epsilon || g.terminals.contains epsilon) = true ↔
      g.DeclaresEpsilon := by
  rw [Bool.or_eq_true, FinSet.contains_iff, FinSet.contains_iff]
  rfl

theorem find?_contains_eq_none_iff :
    g.nonTerminals.find? g.terminals.contains = none ↔ ∀ c, ¬ g.Overlaps c := by
  unfold Overlaps
  simp

theorem find?_contains_eq_some_iff :
    g.nonTerminals.find? g.terminals.contains = some c ↔ Ordered.IsLeast g.Overlaps c := by
  rw [FinSet.find?_eq_some_iff]
  simp only [FinSet.contains_iff]
  rfl

theorem symbolProblem?_eq_some_iff :
    g.symbolProblem? s = some e ↔ ¬ g.Declares s ∧ undeclared s = e := by
  cases s with
  | terminal c => simp [symbolProblem?, Declares, undeclared]
  | nonTerminal c => simp [symbolProblem?, Declares, undeclared]

theorem entryProblem?_eq {A : Char} {ps : List Production} :
    g.entryProblem? A ps =
      (.nonTerminal A :: ps.flatMap Production.symbols).findSome? g.symbolProblem? := by
  unfold entryProblem?
  rw [List.findSome?_cons, symbolProblem?]
  split
  · rfl
  · rfl

theorem findSome?_symbolProblem?_uses :
    g.uses.findSome? g.symbolProblem? =
      if g.nonTerminals.contains g.start then
        g.productions.entries.findSome? fun e => g.entryProblem? e.1 e.2
      else
        some (.unknownNonTerminal g.start) := by
  unfold uses
  simp only [entryProblem?_eq]
  rw [List.findSome?_cons, symbolProblem?, findSome?_flatMap]
  cases g.nonTerminals.contains g.start with
  | true => rfl
  | false => rfl

theorem findSome?_symbolProblem?_uses_eq_some_iff :
    g.uses.findSome? g.symbolProblem? = some e ↔
      ∃ s, g.IsFirstUndeclared s ∧ undeclared s = e := by
  unfold IsFirstUndeclared
  simp only [List.findSome?_eq_some_iff, symbolProblem?_eq_some_iff, symbolProblem?_eq_none_iff]
  constructor
  · rintro ⟨before, s, after, huses, ⟨hs, he⟩, hbefore⟩
    exact ⟨s, ⟨before, after, huses, hbefore, hs⟩, he⟩
  · rintro ⟨s, ⟨before, after, huses, hbefore, hs⟩, he⟩
    exact ⟨before, s, after, huses, ⟨hs, he⟩, hbefore⟩

theorem problem?_eq :
    g.problem? =
      if g.nonTerminals.contains epsilon || g.terminals.contains epsilon then
        some (.reservedSymbol epsilon)
      else
        ((g.nonTerminals.find? g.terminals.contains).map .overlappingSymbol).or
          (g.uses.findSome? g.symbolProblem?) := by
  unfold problem?
  rw [findSome?_symbolProblem?_uses]
  cases g.nonTerminals.find? g.terminals.contains with
  | none => rfl
  | some c => rfl

theorem problem?_eq_some_iff : g.problem? = some e ↔ g.IsFault e := by
  -- One stage of the check after the other; what a stage finds rules out the faults of the others.
  rw [problem?_eq]
  split
  · rename_i hε
    rw [contains_epsilon_iff] at hε
    constructor
    · intro h
      cases h
      exact .reserved hε
    · intro h
      cases h with
      | reserved => rfl
      | overlapping hn => contradiction
      | undeclared hn => contradiction
  · rename_i hε
    rw [contains_epsilon_iff] at hε
    cases hc : g.nonTerminals.find? g.terminals.contains with
    | none =>
      rw [find?_contains_eq_none_iff] at hc
      rw [Option.map_none, Option.none_or, findSome?_symbolProblem?_uses_eq_some_iff]
      constructor
      · rintro ⟨s, hs, he⟩
        rw [← he]
        exact .undeclared hε hc hs
      · intro h
        cases h with
        | reserved hd => contradiction
        | overlapping _ hleast => exact absurd hleast.1 (hc _)
        | undeclared _ _ hs => exact ⟨_, hs, rfl⟩
    | some c =>
      rw [find?_contains_eq_some_iff] at hc
      rw [Option.map_some, Option.some_or]
      constructor
      · intro h
        cases h
        exact .overlapping hε hc
      · intro h
        cases h with
        | reserved hd => contradiction
        | overlapping _ hleast => rw [hc.unique hleast]
        | undeclared _ hn => exact absurd hc.1 (hn c)

theorem checked_eq_error_iff : g.checked = .error e ↔ g.IsFault e := by
  rw [← problem?_eq_some_iff, checked]
  cases g.problem? with
  | none => simp
  | some e' => simp

theorem checked_eq_ok_iff_and_checked_eq_error_iff (g : Grammar) :
    (∀ h, g.checked = .ok h ↔ g.IsValid ∧ h = g) ∧
      ∀ e, g.checked = .error e ↔ g.IsFault e := by
  constructor
  · intro h
    apply checked_eq_ok_iff
  · intro e
    apply checked_eq_error_iff

example :
    checked
      { nonTerminals := .ofList ['S', 'b', 'a']
        terminals := .ofList ['b', 'a']
        productions := .ofList [('X', [.letter 'y'])]
        start := 'T' } = .error (.overlappingSymbol 'a') := by
  rfl

end Grammar

end RegLang
