import RegLang.Json.Reader.Collection
import RegLang.Json.Reader.Record
import RegLang.Proofs.Json.Lexer

/-!
This module contains what the readers make of written JSON values: how a reader that is composed of
others takes a value from the front of the tokens, given that those others do.
-/

namespace RegLang

namespace Json

namespace Reader

variable {α β δ : Type} {r item value : Reader α} {j : Json} {a : α} {rest : List Token}
  {write : α → Json} {layout : Layout}

theorem ok_bind {ε : Type} {f : α → Except ε β} : (Except.ok a >>= f) = f a := rfl

def Reads (r : Reader α) (j : Json) (a : α) : Prop :=
  ∀ rest, r.read (j.toTokens ++ rest) = .ok (a, rest)

theorem reads_string {content : String} : string.Reads (.text content) content := by
  intro rest
  rfl

theorem Reads.refine {f : α → Except Problem β} {b : β} (h : r.Reads j a) (hf : f a = .ok b) :
    (r.refine f).Reads j b := by
  intro rest
  unfold Reader.refine
  dsimp only
  rw [h, ok_bind, hf, ok_bind]
  rfl

theorem Reads.map (h : r.Reads j a) (f : α → β) : (r.map f).Reads j (f a) := h.refine rfl

theorem reads_char {c : Char} : char.Reads (.ofChar c) c := by
  apply reads_string.refine
  rw [String.toList_singleton]

section List

theorem exists_toTokens_eq_cons (j : Json) :
    ∃ t ts, j.toTokens = t :: ts ∧ t ≠ .closeBracket := by
  unfold toTokens
  split
  all_goals exact ⟨_, _, rfl, Token.noConfusion⟩

theorem nextItem?_true : nextItem? true (j.toTokens ++ rest) = .ok (some (j.toTokens ++ rest)) := by
  rcases exists_toTokens_eq_cons j with ⟨t, ts, hj, ht⟩
  rw [hj]
  cases t with
  | closeBracket => contradiction
  | _ => rfl

theorem nextItem?_comma :
    nextItem? false (.comma :: (j.toTokens ++ rest)) = .ok (some (j.toTokens ++ rest)) := by
  rcases exists_toTokens_eq_cons j with ⟨t, ts, hj, ht⟩
  rw [hj]
  cases t with
  | closeBracket => contradiction
  | _ => rfl

theorem items_of_nextItem? {isFirst : Bool} {ts next : List Token}
    (hn : nextItem? isFirst ts = .ok (some next)) (hi : item.read next = .ok (a, rest)) :
    items item isFirst ts = (items item false rest).map fun r => (a :: r.1, r.2) := by
  rw [items]
  split
  · simp_all
  · simp_all
  · rename_i next' hn'
    rw [hn] at hn'
    cases hn'
    split
    · simp_all
    · rename_i a' rest' hi'
      rw [hi] at hi'
      cases hi'
      rfl

theorem items_closeBracket {isFirst : Bool} :
    items item isFirst (.closeBracket :: rest) = .ok ([], rest) := by
  rw [items]
  rfl

theorem items_itemTokens (h : ∀ a, item.Reads (write a) a) (as : List α) :
    items item false (itemTokens (as.map write) ++ .closeBracket :: rest) = .ok (as, rest) := by
  induction as with
  | nil => exact items_closeBracket
  | cons a as ih =>
    rw [List.map_cons, itemTokens, List.cons_append, List.cons_append, List.append_assoc,
      items_of_nextItem? nextItem?_comma (h a _), ih]
    rfl

theorem reads_list (h : ∀ a, item.Reads (write a) a) (as : List α) :
    (list item).Reads (.list (as.map write)) as := by
  intro rest
  cases as with
  | nil => exact items_closeBracket
  | cons a as =>
    rw [List.map_cons, toTokens, List.append_assoc, List.append_assoc, List.cons_append]
    unfold list
    dsimp only
    rw [items_of_nextItem? nextItem?_true (h a _), List.singleton_append, items_itemTokens h]
    rfl

end List

section Object

variable {isFirst : Bool} {ts next : List Token} {name : String}

theorem nextField?_true : nextField? true (.text (.ok name) :: ts) = .ok (some (name, ts)) := rfl

theorem nextField?_comma :
    nextField? false (.comma :: .text (.ok name) :: ts) = .ok (some (name, ts)) := rfl

theorem Reads.fieldValue (h : value.Reads j a) :
    (fieldValue value).read (.colon :: (j.toTokens ++ rest)) = .ok (a, rest) := h rest

theorem fields_of_nextField? (hn : nextField? isFirst ts = .ok (some (name, next)))
    (hv : (fieldValue value).read next = .ok (a, rest)) :
    fields value isFirst ts = (fields value false rest).map fun r => ((name, a) :: r.1, r.2) := by
  rw [fields]
  split
  · simp_all
  · simp_all
  · rename_i name' next' hn'
    rw [hn] at hn'
    cases hn'
    split
    · simp_all
    · rename_i a' rest' hv'
      rw [hv] at hv'
      cases hv'
      rfl

theorem fields_closeBrace : fields value isFirst (.closeBrace :: rest) = .ok ([], rest) := by
  rw [fields]
  rfl

theorem fields_fieldTokens (h : ∀ a, value.Reads (write a) a) (es : List (String × α)) :
    fields value false (fieldTokens (es.map fun e => (e.1, write e.2)) ++ .closeBrace :: rest) =
      .ok (es, rest) := by
  induction es with
  | nil => exact fields_closeBrace
  | cons e es ih =>
    rw [List.map_cons, fieldTokens, List.append_assoc, List.cons_append, List.cons_append,
      List.cons_append, fields_of_nextField? nextField?_comma (h e.2).fieldValue, ih]
    rfl

theorem reads_object (h : ∀ a, value.Reads (write a) a) (es : List (String × α)) :
    (object value).Reads (.object (es.map fun e => (e.1, write e.2))) es := by
  intro rest
  cases es with
  | nil => exact fields_closeBrace
  | cons e es =>
    rw [List.map_cons, toTokens, List.append_assoc, List.append_assoc, List.cons_append,
      List.cons_append, List.cons_append]
    unfold object
    dsimp only
    rw [fields_of_nextField? nextField?_true (h e.2).fieldValue, List.singleton_append,
      fields_fieldTokens h]
    rfl

end Object

section Record

variable {fs : List (Field δ)} {f : Field δ} {d d' d'' empty : δ} {finish : δ → Option α}
  {isFirst : Bool} {ts next : List Token} {name : String} {written : List (String × Json)}

inductive Fills (fs : List (Field δ)) : δ → List (String × Json) → δ → Prop where
  | nil (d : δ) : Fills fs d [] d
  | cons {d d' d'' : δ} {f : Field δ} {name : String} {j : Json} {written : List (String × Json)} :
    (fs.find? fun f => f.name == name) = some f → f.isSet d = false → (f.read d).Reads j d' →
      Fills fs d' written d'' → Fills fs d ((name, j) :: written) d''

theorem Reads.readOf {get : δ → Option α} {set : δ → α → δ} (h : value.Reads j a) :
    ((Field.of name value get set).read d).Reads j (set d a) := h.map (set d)

theorem read_namedField (hf : (fs.find? fun f => f.name == name) = some f)
    (hs : f.isSet d = false) (hr : (f.read d).Reads j d') :
    (namedField fs name d).read (.colon :: (j.toTokens ++ rest)) = .ok (d', rest) := by
  unfold namedField
  simp only [hf, hs, Bool.false_eq_true, if_false]
  exact hr.fieldValue

theorem byName_of_nextField? (hn : nextField? isFirst ts = .ok (some (name, next)))
    (hf : (namedField fs name d).read next = .ok (d', rest)) :
    byName fs isFirst d ts = byName fs false d' rest := by
  rw [byName]
  split
  · simp_all
  · simp_all
  · rename_i name' next' hn'
    rw [hn] at hn'
    cases hn'
    split
    · simp_all
    · rename_i d'' rest' hf'
      rw [hf] at hf'
      cases hf'
      rfl

theorem byName_closeBrace :
    byName fs isFirst d (.closeBrace :: rest) = .ok (d, .closeBrace :: rest) := by
  rw [byName]
  rfl

theorem Fills.byName (h : Fills fs d written d') :
    byName fs false d (fieldTokens written ++ .closeBrace :: rest) =
      .ok (d', .closeBrace :: rest) := by
  induction h with
  | nil => exact byName_closeBrace
  | cons hf hs hr _ ih =>
    rw [fieldTokens, List.append_assoc, List.cons_append, List.cons_append, List.cons_append,
      byName_of_nextField? nextField?_comma (read_namedField hf hs hr), ih]

theorem close_closeBrace (ha : finish d = some a) :
    close finish closeBrace d (.closeBrace :: rest) = .ok (a, rest) := by
  unfold close
  rw [ha]
  rfl

theorem Fills.reads_record (h : Fills fs empty written d) (ha : finish d = some a) :
    (record fs empty finish).Reads (.object written) a := by
  intro rest
  unfold record
  cases h with
  | nil =>
    rw [toTokens, List.cons_append, List.singleton_append]
    dsimp only
    rw [byName_closeBrace, ok_bind, close_closeBrace ha]
  | cons hf hs hr h =>
    rw [toTokens, List.append_assoc, List.append_assoc, List.cons_append, List.cons_append,
      List.cons_append, List.singleton_append]
    dsimp only
    rw [byName_of_nextField? nextField?_true (read_namedField hf hs hr), h.byName, ok_bind,
      close_closeBrace ha]

end Record

section Run

theorem Reads.run (h : r.Reads j a) (hl : layout.IsBlank) : r.run (render layout 0 j) = .ok a := by
  have hr := h []
  rw [List.append_nil] at hr
  unfold Reader.run
  rw [tokens_render_zero hl, hr, ok_bind]
  rfl

theorem Reads.read_pretty (h : r.Reads j a) : Json.read r j.pretty = .ok a := by
  unfold Json.read pretty
  rw [h.run Layout.isBlank_pretty]

theorem Reads.read_compact (h : r.Reads j a) : Json.read r j.compact = .ok a := by
  unfold Json.read compact
  rw [h.run Layout.isBlank_compact]

end Run

end Reader

end Json

end RegLang
