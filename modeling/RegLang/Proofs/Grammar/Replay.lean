import RegLang.Grammar.Replay
import RegLang.Proofs.Grammar.Blank
import RegLang.Proofs.Grammar.Generation

/-!
This module contains what the events of a generation say of it: they are a leftmost derivation. Each
of them expands the leftmost non-terminal, and what they come to is the generated text, followed by
a non-terminal if and only if the generation is cut off by the depth limit.
-/

namespace RegLang

namespace Grammar

variable {g : Grammar} {A : Char} {depth : Nat} {p q : Production}
  {s t u form symbols rest : List Symbol} {e e' : Expansion} {es es' : List Expansion}
  {source : WordSource} {r r' : Generation}

section Replay

theorem expandLeftmost?_append (h : e.expandLeftmost? g s = some t) :
    e.expandLeftmost? g (s ++ u) = some (t ++ u) := by
  induction s generalizing t with
  | nil => cases h
  | cons x s ih =>
    cases x with
    | terminal c =>
      rcases Option.map_eq_some_iff.mp h with ⟨t', ht, rfl⟩
      exact Option.map_eq_some_iff.mpr ⟨t' ++ u, ih ht, rfl⟩
    | nonTerminal A =>
      rcases Option.map_eq_some_iff.mp h with ⟨v, hv, rfl⟩
      exact Option.map_eq_some_iff.mpr ⟨v, hv, (List.append_assoc v s u).symm⟩

theorem replay?_append_right (h : g.replay? s es = some t) :
    g.replay? (s ++ u) es = some (t ++ u) := by
  induction es generalizing s with
  | nil =>
    cases h
    rfl
  | cons e es ih =>
    rw [replay?_cons] at h ⊢
    rcases Option.bind_eq_some_iff.mp h with ⟨v, hv, h⟩
    rw [expandLeftmost?_append hv]
    exact ih h

theorem replay?_terminal_cons {c : Char} :
    g.replay? (.terminal c :: s) es = (g.replay? s es).map (.terminal c :: ·) := by
  induction es generalizing s with
  | nil => rfl
  | cons e es ih =>
    rw [replay?_cons, replay?_cons, Expansion.expandLeftmost?]
    cases e.expandLeftmost? g s with
    | none => rfl
    | some t => exact ih

theorem replay?_ofWord_append (w : List Char) :
    g.replay? (Symbol.ofWord w ++ s) es = (g.replay? s es).map (Symbol.ofWord w ++ ·) := by
  induction w with
  | nil => exact Option.map_id'.symm
  | cons c w ih =>
    unfold Symbol.ofWord at ih ⊢
    rw [List.map_cons, List.cons_append, replay?_terminal_cons, ih, Option.map_map]
    rfl

theorem replay?_applied (h : p ∈ g.productionsFor A) :
    g.replay? [.nonTerminal A] (.applied A p :: es) = g.replay? p.symbols es := by
  simp [Expansion.expandLeftmost?, Expansion.replacement?, h]

theorem replay?_deadEnd (h : g.productionsFor A = []) :
    g.replay? [.nonTerminal A] [.deadEnd A] = some [] := by
  simp [Expansion.expandLeftmost?, Expansion.replacement?, h]

end Replay

section Generation

variable {expand : Char → WordSource → Generation}

/--
Whether the replay of a part of a generation from the given symbols comes to the generated text and
to the `rest` after it, where nothing is left if the part is complete, and otherwise a non-terminal
comes first.
-/
structure IsReplayed (g : Grammar) (symbols : List Symbol) (r : Generation) (rest : List Symbol) :
    Prop where
  replay?_eq : g.replay? symbols r.expansions = some (Symbol.ofWord r.text ++ rest)
  rest_eq_nil : r.completed = true → rest = []
  exists_nonTerminal : r.completed = false → ∃ A rest', rest = .nonTerminal A :: rest'

theorem IsReplayed.terminal_cons {c : Char} (h : IsReplayed g symbols r rest) :
    IsReplayed g (.terminal c :: symbols) { r with text := c :: r.text } rest := by
  refine ⟨?_, h.rest_eq_nil, h.exists_nonTerminal⟩
  rw [replay?_terminal_cons, h.replay?_eq]
  rfl

theorem IsReplayed.append (hc : r.completed = true) (h : IsReplayed g s r u)
    (h' : IsReplayed g t r' rest) :
    IsReplayed g (s ++ t)
      { r' with expansions := r.expansions ++ r'.expansions, text := r.text ++ r'.text } rest := by
  have hs := h.replay?_eq
  rw [h.rest_eq_nil hc, List.append_nil] at hs
  refine ⟨?_, h'.rest_eq_nil, h'.exists_nonTerminal⟩
  rw [replay?_append, replay?_append_right hs, Option.bind_some, replay?_ofWord_append,
    h'.replay?_eq]
  simp [Symbol.ofWord]

theorem IsReplayed.append_right (hc : r.completed = false) (h : IsReplayed g s r rest) :
    IsReplayed g (s ++ t) r (rest ++ t) := by
  refine ⟨?_, ?_, ?_⟩
  · rw [replay?_append_right h.replay?_eq, List.append_assoc]
  · intro hc'
    rw [hc] at hc'
    cases hc'
  · intro hc
    rcases h.exists_nonTerminal hc with ⟨A, rest', hrest⟩
    exact ⟨A, rest' ++ t, by rw [hrest, List.cons_append]⟩

theorem IsReplayed.applied (hp : p ∈ g.productionsFor A) (h : IsReplayed g p.symbols r rest) :
    IsReplayed g [.nonTerminal A] { r with expansions := .applied A p :: r.expansions } rest := by
  refine ⟨?_, h.rest_eq_nil, h.exists_nonTerminal⟩
  rw [replay?_applied hp]
  exact h.replay?_eq

theorem exists_isReplayed_ofSymbols
    (hexpand : ∀ A source, ∃ rest, IsReplayed g [.nonTerminal A] (expand A source) rest) :
    ∃ rest, IsReplayed g symbols (Generation.ofSymbols expand symbols source) rest := by
  induction symbols generalizing source with
  | nil =>
    refine ⟨[], rfl, fun _ => rfl, ?_⟩
    intro hc
    cases hc
  | cons x symbols ih =>
    cases x with
    | terminal c =>
      rcases ih with ⟨rest, h⟩
      exact ⟨rest, h.terminal_cons⟩
    | nonTerminal A =>
      -- The symbols that follow are reached only if the expansion of `A` is complete.
      rcases hexpand A source with ⟨first, hfirst⟩
      cases hc : (expand A source).completed with
      | true =>
        rw [Generation.ofSymbols_nonTerminal_of_completed hc]
        rcases ih with ⟨rest, h⟩
        exact ⟨rest, hfirst.append hc h⟩
      | false =>
        rw [Generation.ofSymbols_nonTerminal_of_not_completed hc]
        exact ⟨first ++ symbols, hfirst.append_right hc⟩

theorem exists_isReplayed_expand :
    ∃ rest, IsReplayed g [.nonTerminal A] (g.expand depth A source) rest := by
  induction depth generalizing A source with
  | zero =>
    refine ⟨[.nonTerminal A], rfl, ?_, fun _ => ⟨A, [], rfl⟩⟩
    intro hc
    cases hc
  | succ depth ih =>
    rcases expand_succ_cases g A source with ⟨hps, hexpand⟩ | ⟨p, next, hp, hexpand⟩
    · rw [hexpand]
      refine ⟨[], replay?_deadEnd hps, fun _ => rfl, ?_⟩
      intro hc
      cases hc
    · rw [hexpand]
      rcases exists_isReplayed_ofSymbols (fun _ _ => ih) with ⟨rest, h⟩
      exact ⟨rest, h.applied hp⟩

end Generation

section Events

theorem IsValid.text_eq_epsilon_iff (hg : g.IsValid) (hp : p ∈ g.productionsFor A) :
    p.text = [epsilon] ↔ p.symbols = [] := by
  constructor
  · intro h
    cases hs : p.symbols with
    | nil => rfl
    | cons x symbols =>
      -- No symbol is written `ε`.
      have hx : x ∈ p.symbols := by
        rw [hs]
        exact List.mem_cons_self
      rw [Production.text_of_symbols_ne_nil (List.ne_nil_of_mem hx), hs] at h
      exact absurd (List.cons.inj h).1 (hg.char_ne_epsilon (hg.declares A p x hp hx))
  · intro h
    unfold Production.text
    rw [h]

theorem IsValid.map_tag_char (hg : g.IsValid) (hp : p ∈ g.productionsFor A) :
    (p.symbols.map Symbol.char).map (Production.tag g.nonTerminals) = p.symbols := by
  rw [List.map_map]
  refine (List.map_congr_left ?_).trans (List.map_id p.symbols)
  intro x hx
  exact hg.tag_char (hg.declares A p x hp hx)

theorem IsValid.eq_of_text_eq (hg : g.IsValid) (hp : p ∈ g.productionsFor A)
    (hq : q ∈ g.productionsFor A) (h : p.text = q.text) : p = q := by
  apply congrArg Production.mk
  by_cases hε : p.symbols = []
  · rw [hε]
    rw [← hg.text_eq_epsilon_iff hp, h, hg.text_eq_epsilon_iff hq] at hε
    exact hε.symm
  · have hε' : q.symbols ≠ [] := by
      rwa [ne_eq, ← hg.text_eq_epsilon_iff hq, ← h, hg.text_eq_epsilon_iff hp]
    rw [Production.text_of_symbols_ne_nil hε, Production.text_of_symbols_ne_nil hε'] at h
    rw [← hg.map_tag_char hp, h, hg.map_tag_char hq]

theorem IsValid.replacement?_eq_of_event_eq (hg : g.IsValid) (hevent : e.event = e'.event)
    (h : e.replacement? g A = some s) (h' : e'.replacement? g A = some t) : s = t := by
  cases e <;> cases e'
  case applied.applied B p B' q =>
    have htext : p.text = q.text := String.ofList_injective (Event.productionApplied.inj hevent).2
    simp only [Expansion.replacement?, Option.ite_none_right_eq_some, Option.some.injEq] at h h'
    rcases h with ⟨⟨_, hp⟩, rfl⟩
    rcases h' with ⟨⟨_, hq⟩, rfl⟩
    rw [hg.eq_of_text_eq hp hq htext]
  case deadEnd.deadEnd B B' =>
    simp only [Expansion.replacement?, Option.ite_none_right_eq_some, Option.some.injEq] at h h'
    rw [← h.2, ← h'.2]
  all_goals cases hevent

theorem IsValid.expandLeftmost?_eq_of_event_eq (hg : g.IsValid) (hevent : e.event = e'.event)
    (h : e.expandLeftmost? g s = some t) (h' : e'.expandLeftmost? g s = some u) : t = u := by
  induction s generalizing t u with
  | nil => cases h
  | cons x s ih =>
    cases x with
    | terminal c =>
      rcases Option.map_eq_some_iff.mp h with ⟨v, hv, rfl⟩
      rcases Option.map_eq_some_iff.mp h' with ⟨v', hv', rfl⟩
      rw [ih hv hv']
    | nonTerminal A =>
      rcases Option.map_eq_some_iff.mp h with ⟨v, hv, rfl⟩
      rcases Option.map_eq_some_iff.mp h' with ⟨v', hv', rfl⟩
      rw [hg.replacement?_eq_of_event_eq hevent hv hv']

theorem IsValid.replay?_eq_of_map_event_eq (hg : g.IsValid)
    (hevents : es.map Expansion.event = es'.map Expansion.event) (h : g.replay? s es = some t)
    (h' : g.replay? s es' = some u) : t = u := by
  induction es generalizing s es' with
  | nil =>
    cases List.map_eq_nil_iff.mp hevents.symm
    exact Option.some.inj (h.symm.trans h')
  | cons e es ih =>
    rcases List.map_eq_cons_iff.mp hevents.symm with ⟨e', es', rfl, hevent, hevents⟩
    rw [replay?_cons, Option.bind_eq_some_iff] at h h'
    rcases h with ⟨v, hv, h⟩
    rcases h' with ⟨v', hv', h'⟩
    rw [hg.expandLeftmost?_eq_of_event_eq hevent.symm hv hv'] at h
    exact ih hevents.symm h h'

/--
Whether the events are a leftmost derivation of a sequence of symbols from the start symbol.
-/
def Replays (g : Grammar) (events : List Event) (form : List Symbol) : Prop :=
  ∃ es : List Expansion, es.map Expansion.event = events ∧
    g.replay? [.nonTerminal g.start] es = some form

theorem IsReplayed.replays_iff (hg : g.IsValid)
    (h : IsReplayed g [.nonTerminal g.start] r rest) :
    g.Replays (r.expansions.map Expansion.event) form ↔ form = Symbol.ofWord r.text ++ rest := by
  constructor
  · rintro ⟨es, hevents, hform⟩
    exact hg.replay?_eq_of_map_event_eq hevents hform h.replay?_eq
  · intro hform
    exact ⟨r.expansions, rfl, hform ▸ h.replay?_eq⟩

theorem generated_not_mem_map_event (text : String) :
    ¬ .generated text ∈ es.map Expansion.event := by
  intro h
  rcases List.mem_map.mp h with ⟨e, _, he⟩
  cases e <;> cases he

/--
The events after the first one are a leftmost derivation, and of one sequence of symbols only. If
the generation succeeds this is the generated string, which one more event shows; if it fails a
non-terminal is left and no event shows a string.
-/
theorem exists_replays_generationEvents (hg : g.IsValid) (source : WordSource) :
    ∃ steps ending form,
      g.generationEvents (g.generation source) = .generationStarted g.start :: steps ++ ending ∧
        (∀ form', g.Replays steps form' ↔ form' = form) ∧
        (∀ w, g.generate source = .ok w ↔
          form = Symbol.ofWord w ∧ ending = [.generated (String.ofList w)]) ∧
        ∀ e, g.generate source = .error e →
          ending = [] ∧ (∃ A, .nonTerminal A ∈ form) ∧
            ∀ text, ¬ .generated text ∈ g.generationEvents (g.generation source) := by
  have h : ∃ rest, IsReplayed g [.nonTerminal g.start] (g.generation source) rest :=
    exists_isReplayed_expand
  rcases h with ⟨rest, h⟩
  refine ⟨_, _, Symbol.ofWord (g.generation source).text ++ rest, rfl, ?_, ?_, ?_⟩
  · intro form'
    exact h.replays_iff hg
  · intro w
    rw [generate_eq_ok_iff]
    constructor
    · rintro ⟨hc, rfl⟩
      rw [h.rest_eq_nil hc, List.append_nil, if_pos hc]
      exact ⟨rfl, rfl⟩
    · rintro ⟨_, hending⟩
      split at hending
      · next hc =>
        rw [List.singleton_inj, Event.generated.injEq, String.ofList_inj] at hending
        exact ⟨hc, hending⟩
      · cases hending
  · intro e he
    have hc := (generate_eq_error_iff.mp he).1
    refine ⟨?_, ?_, ?_⟩
    · rw [hc, if_neg Bool.false_ne_true]
    · rcases h.exists_nonTerminal hc with ⟨A, rest', hrest⟩
      exact ⟨A, by simp [hrest]⟩
    · intro text hmem
      rw [generationEvents_of_not_completed hc] at hmem
      cases hmem with
      | tail _ hmem => exact generated_not_mem_map_event text hmem

/--
One generation is cut off at a `U` that is nested too deep, with a `T` still to come; the other one
ends with the string `ab`.
-/
theorem exists_replays_generationEvents_bracketed :
    let cut : WordSource := ⟨[0, 0xB0000000], 0⟩
    let full : WordSource := ⟨[0, 0x60000000], 0⟩
    let cutSteps := [.productionApplied 'S' "aST", .productionApplied 'S' "U"]
    let fullSteps := [.productionApplied 'S' "aST", .productionApplied 'S' "ε",
      .productionApplied 'T' "b"]
    bracketed.IsValid ∧
      bracketed.generate cut = .error (.depthExceeded 2) ∧
      bracketed.generationEvents (bracketed.generation cut) = .generationStarted 'S' :: cutSteps ∧
      (∀ form, bracketed.Replays cutSteps form ↔
        form = [.terminal 'a', .nonTerminal 'U', .nonTerminal 'T']) ∧
      bracketed.generate full = .ok ['a', 'b'] ∧
      bracketed.generationEvents (bracketed.generation full) =
        .generationStarted 'S' :: fullSteps ++ [.generated "ab"] ∧
      ∀ form, bracketed.Replays fullSteps form ↔ form = Symbol.ofWord ['a', 'b'] := by
  intro cut full cutSteps fullSteps
  have hg : bracketed.IsValid := isValid_of_checked (g := bracketed) rfl
  have hcut : bracketed.generate cut = .error (.depthExceeded 2) := rfl
  have hfull : bracketed.generate full = .ok ['a', 'b'] := rfl
  refine ⟨hg, hcut, rfl, ?_, hfull, rfl, ?_⟩
  · rcases exists_replays_generationEvents hg cut with ⟨steps, _, form, hevents, hform, _, herror⟩
    rcases herror _ hcut with ⟨rfl, _, _⟩
    have hsteps : cutSteps = steps := by
      rw [List.append_nil] at hevents
      exact (List.cons.inj hevents).2
    have hreplay : bracketed.Replays cutSteps [.terminal 'a', .nonTerminal 'U', .nonTerminal 'T'] :=
      ⟨[.applied 'S' ⟨[.terminal 'a', .nonTerminal 'S', .nonTerminal 'T']⟩,
        .applied 'S' ⟨[.nonTerminal 'U']⟩], rfl, rfl⟩
    rw [hsteps] at hreplay ⊢
    rw [(hform _).mp hreplay]
    exact hform
  · rcases exists_replays_generationEvents hg full with ⟨steps, _, form, hevents, hform, hok, _⟩
    rcases (hok _).mp hfull with ⟨rfl, rfl⟩
    have hcons : .generationStarted 'S' :: fullSteps = .generationStarted 'S' :: steps :=
      List.append_cancel_right hevents
    rw [(List.cons.inj hcons).2]
    exact hform

end Events

end Grammar

end RegLang
