import RegLang.Proofs.Automaton.Nondeterminism

/-!
This module contains the order in which the kinds of reasons against determinism are looked for. The
states are gone through once, and the first incomplete one decides. So a state without transitions
is reported before states that miss a successor only if it comes before all of them.
-/

namespace RegLang

namespace Automaton

variable {σ : Type} [Ordered σ] {A : Automaton σ} {p q : σ} {a : Char}

def IsLeastStuck (A : Automaton σ) (state : σ) : Prop :=
  Ordered.IsLeast (fun q => q ∈ A.states ∧ A.IsStuck q) state

/--
Whether states without transitions are reported before all states that miss a successor: the least
one of them is the reason if there are any, and only else a missing transition is one.
-/
structure ReportsStuckFirst (A : Automaton σ) : Prop where
  noTransitions : (∃ q, q ∈ A.states ∧ A.IsStuck q) →
    ∃ p, A.IsLeastStuck p ∧ A.nondeterminism? = some (.noTransitions p)
  missingTransition : ∀ p a, A.nondeterminism? = some (.missingTransition p a) →
    ∀ q, q ∈ A.states → ¬ A.IsStuck q

theorem isIncomplete_of_isStuck (hq : q ∈ A.states) (h : A.IsStuck q) : A.IsIncomplete q :=
  ⟨hq, .inl h⟩

theorem isIncomplete_of_misses (hq : q ∈ A.states) (h : A.Misses q a) : A.IsIncomplete q :=
  ⟨hq, .inr ⟨a, h⟩⟩

theorem isLeastStuck_of_isLeast (hq : Ordered.IsLeast A.IsIncomplete q) (h : A.IsStuck q) :
    A.IsLeastStuck q := by
  refine ⟨⟨hq.1.1, h⟩, ?_⟩
  rintro r ⟨hr, hrs⟩
  exact hq.2 r (isIncomplete_of_isStuck hr hrs)

section

variable (hA : A.IsValid)

include hA

theorem exists_isLeastStuck (h : ∃ q, q ∈ A.states ∧ A.IsStuck q) : ∃ p, A.IsLeastStuck p := by
  have hmove (q : σ) : (!A.canMove q) = true ↔ A.IsStuck q := by
    rw [Bool.not_eq_true', ← Bool.not_eq_true, canMove_iff_not_isStuck hA, Classical.not_not]
  cases hfind : A.states.find? fun q => !A.canMove q with
  | none =>
    rw [FinSet.find?_eq_none_iff] at hfind
    rcases h with ⟨q, hq, hstuck⟩
    exact absurd ((hmove q).mpr hstuck) (hfind q hq)
  | some p =>
    rw [FinSet.find?_eq_some_iff] at hfind
    simp only [hmove] at hfind
    exact ⟨p, hfind⟩

theorem lt_of_nondeterminism?_eq_missingTransition
    (h : A.nondeterminism? = some (.missingTransition p a)) (hq : q ∈ A.states)
    (hqs : A.IsStuck q) : Ordered.Lt p q := by
  rw [nondeterminism?_eq_some_iff hA] at h
  cases h with
  | missingTransition _ hp hstuck _ =>
    rcases Ordered.lt_or_eq_or_lt p q with hlt | he | hlt
    · exact hlt
    · subst he
      exact absurd hqs hstuck
    · exact absurd hlt (hp.2 q (isIncomplete_of_isStuck hq hqs))

theorem nondeterminism?_eq_of_isLeastStuck (hn : ∀ q b, ¬ A.Branches q b) (hp : A.IsLeastStuck p) :
    (A.nondeterminism? = some (.noTransitions p) ∧
      ∀ q b, q ∈ A.states → Ordered.Lt q p → ¬ A.Misses q b) ∨
    ∃ q b, q ∈ A.states ∧ Ordered.Lt q p ∧ A.Misses q b ∧
      A.nondeterminism? = some (.missingTransition q b) := by
  cases h : A.nondeterminism? with
  | none =>
    have hdet : A.isDeterministic = true := Option.isNone_iff_eq_none.mpr h
    have hmove := ((isDeterministic_iff.mp hdet).2 p hp.1.1).1
    exact absurd hp.1.2 ((canMove_iff_not_isStuck hA).mp hmove)
  | some r =>
    cases (nondeterminism?_eq_some_iff hA).mp h with
    | multipleSuccessors hb => exact absurd hb (hn _ _)
    | @noTransitions q _ hq hstuck =>
      rw [hp.unique (isLeastStuck_of_isLeast hq hstuck)]
      refine .inl ⟨rfl, ?_⟩
      intro r b hr hlt hb
      exact hq.2 r (isIncomplete_of_misses hr hb) hlt
    | @missingTransition q b _ hq _ hb =>
      have hlt := lt_of_nondeterminism?_eq_missingTransition hA h hp.1.1 hp.1.2
      exact .inr ⟨q, b, hq.1.1, hlt, hb.1, rfl⟩

theorem reportsStuckFirst_iff (hn : ∀ q b, ¬ A.Branches q b) :
    A.ReportsStuckFirst ↔ ∀ p, A.IsLeastStuck p →
      ∀ q b, q ∈ A.states → Ordered.Lt q p → ¬ A.Misses q b := by
  constructor
  · rintro ⟨hreports, _⟩ p hp
    rcases nondeterminism?_eq_of_isLeastStuck hA hn hp with ⟨_, hbefore⟩ | ⟨q, b, _, _, _, h⟩
    · exact hbefore
    · rcases hreports ⟨p, hp.1⟩ with ⟨r, _, hr⟩
      rw [h] at hr
      cases hr
  · intro hbefore
    have hreports {p : σ} (hp : A.IsLeastStuck p) :
        A.nondeterminism? = some (.noTransitions p) := by
      rcases nondeterminism?_eq_of_isLeastStuck hA hn hp with ⟨h, _⟩ | ⟨q, b, hq, hlt, hb, _⟩
      · exact h
      · exact absurd hb (hbefore p hp q b hq hlt)
    constructor
    · intro h
      rcases exists_isLeastStuck hA h with ⟨p, hp⟩
      exact ⟨p, hp, hreports hp⟩
    · intro p a h q hq hqs
      rcases exists_isLeastStuck hA ⟨q, hq, hqs⟩ with ⟨r, hr⟩
      rw [hreports hr] at h
      cases h

end

/--
Where no pair of a state and a symbol has several successors, states without transitions have
priority over missing transitions if and only if no state before the least one without transitions
misses a successor. In any case the least state without transitions is reported, or else a state
before it that misses a successor; and a missing transition is reported only if all states without
transitions come later.
-/
theorem reportsStuckFirst_iff_and_nondeterminism?_eq (hA : A.IsValid)
    (hn : ∀ p a, ¬ A.Branches p a) :
    (A.ReportsStuckFirst ↔ ∀ p, A.IsLeastStuck p →
      ∀ q b, q ∈ A.states → Ordered.Lt q p → ¬ A.Misses q b) ∧
    (∀ p, A.IsLeastStuck p → A.nondeterminism? = some (.noTransitions p) ∨
      ∃ q b, q ∈ A.states ∧ Ordered.Lt q p ∧ A.Misses q b ∧
        A.nondeterminism? = some (.missingTransition q b)) ∧
    ∀ p a, A.nondeterminism? = some (.missingTransition p a) →
      ∀ q, q ∈ A.states → A.IsStuck q → Ordered.Lt p q := by
  refine ⟨reportsStuckFirst_iff hA hn, ?_, ?_⟩
  · intro p hp
    exact (nondeterminism?_eq_of_isLeastStuck hA hn hp).imp_left And.left
  · intro p a h q
    exact lt_of_nondeterminism?_eq_missingTransition hA h

def halting : Automaton Int where
  states := .ofList [0, 1, 2]
  alphabet := .ofList ['a', 'b']
  transitions := .ofTriples [(0, 'a', 2), (0, 'b', 1), (2, 'a', 0)]
  initial := 0
  finals := .singleton 1

theorem isValid_halting : halting.IsValid := by
  apply isValid_of_checked (A := halting)
  rfl

theorem not_branches_halting : ∀ p a, ¬ halting.Branches p a := by
  rw [← hasUniqueSuccessors_iff_not_branches, ← isPartialDfa_iff]
  rfl

theorem reportsStuckFirst_iff_and_nondeterminism?_eq_halting :
    halting.IsValid ∧ (∀ p a, ¬ halting.Branches p a) ∧ halting.Misses 2 'b' ∧
      halting.IsLeastStuck 1 ∧ halting.nondeterminism? = some (.noTransitions 1) ∧
        halting.ReportsStuckFirst := by
  rcases reportsStuckFirst_iff_and_nondeterminism?_eq isValid_halting not_branches_halting with
    ⟨hfirst, _, _⟩
  have hmisses : halting.Misses 2 'b' :=
    ⟨FinSet.contains_iff.mp rfl, (isNone_successors?_iff isValid_halting).mp rfl⟩
  have hreason : halting.nondeterminism? = some (.noTransitions 1) := rfl
  cases (nondeterminism?_eq_some_iff isValid_halting).mp hreason with
  | noTransitions _ hleast hstuck =>
    have hone := isLeastStuck_of_isLeast hleast hstuck
    refine ⟨isValid_halting, not_branches_halting, hmisses, hone, hreason, hfirst.mpr ?_⟩
    intro p hp q b hq hlt hb
    rw [hp.unique hone] at hlt
    exact hleast.2 q (isIncomplete_of_misses hq hb) hlt

def stranded : Automaton String where
  states := .ofList ["p", "q"]
  alphabet := .ofList ['a', 'b']
  transitions := .ofTriples [("p", 'a', "q")]
  initial := "p"
  finals := .singleton "q"

theorem isValid_stranded : stranded.IsValid := by
  apply isValid_of_checked (A := stranded)
  rfl

theorem not_reportsStuckFirst_stranded :
    stranded.IsValid ∧ (∀ p a, ¬ stranded.Branches p a) ∧ "q" ∈ stranded.states ∧
      stranded.IsStuck "q" ∧ stranded.nondeterminism? = some (.missingTransition "p" 'b') ∧
        ¬ stranded.ReportsStuckFirst := by
  have hunique : ∀ p a, ¬ stranded.Branches p a := by
    rw [← hasUniqueSuccessors_iff_not_branches, ← isPartialDfa_iff]
    rfl
  have hq : "q" ∈ stranded.states := FinSet.contains_iff.mp rfl
  have hstuck : stranded.IsStuck "q" := by
    rw [← Classical.not_not (a := stranded.IsStuck "q"), ← canMove_iff_not_isStuck isValid_stranded]
    nofun
  have hreason : stranded.nondeterminism? = some (.missingTransition "p" 'b') := rfl
  refine ⟨isValid_stranded, hunique, hq, hstuck, hreason, ?_⟩
  intro h
  exact h.missingTransition "p" 'b' hreason "q" hq hstuck

end Automaton

end RegLang
