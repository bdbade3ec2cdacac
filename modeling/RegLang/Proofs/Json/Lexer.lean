import RegLang.Json.Basic
import RegLang.Json.Lexer
import RegLang.Proofs.Json.Text

/-!
This module contains the division of written JSON values into tokens. Where the layout adds nothing
but blanks, the tokens of a written value are those that its own structure asks for.
-/

namespace RegLang

namespace Json

variable {layout : Layout} {c : Char} {cs rest : List Char}

mutual

def toTokens : Json → List Token
  | text content => [.text (.ok content)]
  | list [] => [.openBracket, .closeBracket]
  | list (item :: items) =>
    .openBracket :: toTokens item ++ itemTokens items ++ [.closeBracket]
  | object [] => [.openBrace, .closeBrace]
  | object ((name, value) :: fields) =>
    .openBrace :: .text (.ok name) :: .colon :: toTokens value ++ fieldTokens fields
      ++ [.closeBrace]

def itemTokens : List Json → List Token
  | [] => []
  | item :: items => .comma :: toTokens item ++ itemTokens items

def fieldTokens : List (String × Json) → List Token
  | [] => []
  | (name, value) :: fields =>
    .comma :: .text (.ok name) :: .colon :: toTokens value ++ fieldTokens fields

end

structure Layout.IsBlank (layout : Layout) : Prop where
  lineBreak : ∀ depth c, c ∈ layout.lineBreak depth → Token.isSpace c = true
  colon : ∃ blanks, layout.colon = ':' :: blanks ∧ ∀ c, c ∈ blanks → Token.isSpace c = true

theorem Layout.isBlank_compact : compact.IsBlank where
  lineBreak depth c h := by cases h
  colon := ⟨[], rfl, by simp⟩

theorem Layout.isBlank_pretty : pretty.IsBlank where
  lineBreak depth c h := by
    rcases List.mem_cons.mp h with h | h
    · rw [h]
      rfl
    · rw [List.eq_of_mem_replicate h]
      rfl
  colon := by
    refine ⟨[' '], rfl, ?_⟩
    intro c h
    rw [List.mem_singleton.mp h]
    rfl

theorem tokens_append_of_isSpace (h : ∀ c, c ∈ cs → Token.isSpace c = true) :
    tokens (cs ++ rest) = tokens rest := by
  induction cs with
  | nil => rfl
  | cons c cs ih =>
    rw [List.cons_append, tokens, if_pos (h c List.mem_cons_self)]
    apply ih
    intro d hd
    exact h d (List.mem_cons_of_mem c hd)

theorem tokens_mark {mark : Token} (hspace : Token.isSpace c = false)
    (hmark : Token.mark? c = some mark) : tokens (c :: cs) = mark :: tokens cs := by
  have hnext : Token.next c cs = (mark, cs) := by
    unfold Token.next
    rw [hmark]
  rw [tokens, hspace, hnext]
  rfl

theorem tokens_encode :
    tokens (Text.encode cs ++ rest) = .text (.ok (String.ofList cs)) :: tokens rest := by
  have hnext : Token.next '"' (cs.flatMap Text.encodeChar ++ '"' :: rest) =
      (.text (.ok (String.ofList cs)), rest) := by
    unfold Token.next
    rw [Text.scan_flatMap_encodeChar]
    rfl
  unfold Text.encode
  rw [List.append_assoc, List.cons_append, List.singleton_append, tokens, hnext]
  rfl

section Render

variable (hl : layout.IsBlank)

include hl

theorem tokens_lineBreak {depth : Nat} :
    tokens (layout.lineBreak depth ++ rest) = tokens rest :=
  tokens_append_of_isSpace (hl.lineBreak depth)

theorem tokens_colon : tokens (layout.colon ++ rest) = .colon :: tokens rest := by
  rcases hl.colon with ⟨blanks, hcolon, hblanks⟩
  rw [hcolon, List.cons_append, tokens_mark rfl rfl, tokens_append_of_isSpace hblanks]

mutual

theorem tokens_render : ∀ (j : Json) (depth : Nat) (rest : List Char),
    tokens (render layout depth j ++ rest) = j.toTokens ++ tokens rest
  | text content, depth, rest => by
    unfold render toTokens
    rw [tokens_encode, String.ofList_toList]
    rfl
  | list [], depth, rest => by
    unfold render toTokens
    rw [List.cons_append, tokens_mark rfl rfl, List.cons_append, tokens_mark rfl rfl]
    rfl
  | list (item :: items), depth, rest => by
    unfold render toTokens
    simp only [List.append_assoc, List.cons_append]
    rw [tokens_mark rfl rfl, tokens_lineBreak hl, tokens_render item, tokens_renderItems items,
      tokens_lineBreak hl, tokens_mark rfl rfl]
    rfl
  | object [], depth, rest => by
    unfold render toTokens
    rw [List.cons_append, tokens_mark rfl rfl, List.cons_append, tokens_mark rfl rfl]
    rfl
  | object ((name, value) :: fields), depth, rest => by
    unfold render toTokens
    simp only [List.append_assoc, List.cons_append]
    rw [tokens_mark rfl rfl, tokens_lineBreak hl, tokens_encode, String.ofList_toList,
      tokens_colon hl, tokens_render value, tokens_renderFields fields, tokens_lineBreak hl,
      tokens_mark rfl rfl]
    rfl

theorem tokens_renderItems : ∀ (items : List Json) (depth : Nat) (rest : List Char),
    tokens (renderItems layout depth items ++ rest) = itemTokens items ++ tokens rest
  | [], depth, rest => by
    unfold renderItems itemTokens
    rfl
  | item :: items, depth, rest => by
    unfold renderItems itemTokens
    simp only [List.append_assoc, List.cons_append]
    rw [tokens_mark rfl rfl, tokens_lineBreak hl, tokens_render item, tokens_renderItems items]

theorem tokens_renderFields : ∀ (fields : List (String × Json)) (depth : Nat) (rest : List Char),
    tokens (renderFields layout depth fields ++ rest) = fieldTokens fields ++ tokens rest
  | [], depth, rest => by
    unfold renderFields fieldTokens
    rfl
  | (name, value) :: fields, depth, rest => by
    unfold renderFields fieldTokens
    simp only [List.append_assoc, List.cons_append]
    rw [tokens_mark rfl rfl, tokens_lineBreak hl, tokens_encode, String.ofList_toList,
      tokens_colon hl, tokens_render value, tokens_renderFields fields]

end

theorem tokens_render_zero (j : Json) : tokens (render layout 0 j) = j.toTokens := by
  have h := tokens_render hl j 0 []
  rw [List.append_nil] at h
  rw [h, tokens, List.append_nil]

end Render

end Json

end RegLang
