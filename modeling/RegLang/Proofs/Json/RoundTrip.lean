import RegLang.Production.Json
import RegLang.Proofs.Automaton.Definition
import RegLang.Proofs.Grammar.Definition

/-!
This module contains the round trip of productions through JSON text, and with it that of everything
that is written as JSON: definitions of grammars, definitions of automata and productions.
-/

namespace RegLang

open Json.Reader

namespace Symbol

theorem exists_read_kindReader (s : Symbol) (rest : List Json.Token) :
    ∃ make, kindReader.read (.text (.ok s.kind) :: rest) = .ok (make, rest) ∧ make s.char = s := by
  cases s with
  | terminal c => exact ⟨.terminal, rfl, rfl⟩
  | nonTerminal c => exact ⟨.nonTerminal, rfl, rfl⟩

theorem reads_toJson (s : Symbol) : reader.Reads s.toJson s := by
  intro rest
  unfold toJson reader
  rw [Json.toTokens, Json.fieldTokens, List.append_nil, List.append_assoc]
  dsimp only [List.cons_append]
  rcases s.exists_read_kindReader _ with ⟨make, hmake, hs⟩
  rw [hmake, ok_bind]
  dsimp only
  rw [reads_char.fieldValue, ok_bind, hs]
  rfl

end Symbol

namespace Production

theorem reads_toJson (p : Production) : reader.Reads p.toJson p := by
  apply Fills.reads_record (d := some p.symbols)
  · apply Fills.cons rfl rfl (reads_list Symbol.reads_toJson _).readOf
    apply Fills.nil
  · rfl

end Production

theorem ofJson_toJson_definition_and_production :
    (∀ d : Grammar.Definition, Grammar.Definition.ofJson d.toJson.pretty = .ok d) ∧
      (∀ d : Automaton.Definition, Automaton.Definition.ofJson d.toJson.pretty = .ok d) ∧
      ∀ p : Production, Production.ofJson p.toJson.compact = .ok p ∧
        Production.ofJson p.toJson.pretty = .ok p := by
  refine ⟨Grammar.Definition.ofJson_toJson, Automaton.Definition.ofJson_toJson, ?_⟩
  intro p
  constructor
  · exact p.reads_toJson.read_compact
  · exact p.reads_toJson.read_pretty

example :
    (Production.step 'a' 'B').toJson.compact =
      "\x7b\"symbols\":[\x7b\"Terminal\":\"a\"\x7d,\x7b\"NonTerminal\":\"B\"\x7d]\x7d".toList := by
  decide

end RegLang
