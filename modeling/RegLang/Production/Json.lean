import RegLang.Json.Basic
import RegLang.Json.Reader.Collection
import RegLang.Json.Reader.Record
import RegLang.Production

/-!
This module contains the JSON form of a production: an object with the list of its symbols, each
of them an object whose only field names the kind of the symbol.
-/

namespace RegLang

namespace Symbol

def kind : Symbol → String
  | terminal _ => "Terminal"
  | nonTerminal _ => "NonTerminal"

def ofKind? : String → Option (Char → Symbol)
  | "Terminal" => some terminal
  | "NonTerminal" => some nonTerminal
  | _ => none

def kindReader : Json.Reader (Char → Symbol) :=
  Json.Reader.fieldName.refine fun kind =>
    match ofKind? kind with
    | some make => .ok make
    | none => .error .mismatched

def toJson (s : Symbol) : Json := .object [(s.kind, .ofChar s.char)]

/--
A symbol is an object with one field. What is wrong with a value of another type counts only for
strings.
-/
def reader : Json.Reader Symbol where
  read
    | .openBrace :: ts => do
      let (make, ts) ← kindReader.read ts
      let (c, ts) ← (Json.Reader.fieldValue .char).read ts
      (Json.Reader.closeBrace ts).map (make c, ·)
    | .text kept :: ts => .error (Json.Reader.mismatch (.text kept :: ts))
    | .broken true kept _ :: _ => .error kept
    | [] => .error .truncated
    | _ => .error .malformed
  shorter h := by
    split at h
    · obtain ⟨_, hm, h⟩ := Json.Reader.exists_of_bind h
      obtain ⟨_, hc, h⟩ := Json.Reader.exists_of_bind h
      obtain ⟨_, hl, h⟩ := Json.Reader.exists_of_map h
      cases h
      have := kindReader.shorter hm
      have := (Json.Reader.fieldValue .char).shorter hc
      have := Json.Reader.length_of_expect hl
      simp only [List.length_cons]
      omega
    all_goals cases h

end Symbol

namespace Production

def toJson (p : Production) : Json := .object [("symbols", .list (p.symbols.map Symbol.toJson))]

def reader : Json.Reader Production :=
  .record [.of "symbols" (.list Symbol.reader) id fun _ symbols => some symbols] none
    fun symbols => symbols.map Production.mk

def ofJson (text : List Char) : Except Error Production := Json.read reader text

end Production

end RegLang
