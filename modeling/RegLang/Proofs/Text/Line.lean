import Mathlib.Data.List.SplitBy
import RegLang.Text.Listed

/-!
This module contains the lines of a text, and what is left of a text that is put together from whole
lines when those that begin with a mark are deleted.
-/

namespace RegLang

namespace Text

variable {α : Type} {mark : List Char} {s t u v p : String} {c : Char} {names : List String}

/--
The lines of a text, each with the line feed that ends it.
-/
def lines (text : List Char) : List (List Char) := text.splitBy fun c _ => c != '\n'

def withoutMarked (mark : List Char) (text : String) : String :=
  String.ofList ((lines text.toList).filter fun line => !mark.isPrefixOf line).flatten

def IsOneLine (s : String) : Prop := ¬ '\n' ∈ s.toList

instance : DecidablePred IsOneLine := fun _ => inferInstanceAs (Decidable (¬ _))

theorem IsOneLine.append (hs : IsOneLine s) (ht : IsOneLine t) : IsOneLine (s ++ t) := by
  unfold IsOneLine
  rw [String.toList_append, List.mem_append, not_or]
  exact ⟨hs, ht⟩

theorem isOneLine_ofList {cs : List Char} (h : ¬ '\n' ∈ cs) : IsOneLine (String.ofList cs) := by
  unfold IsOneLine
  rw [String.toList_ofList]
  exact h

theorem isOneLine_toString (h : c ≠ '\n') : IsOneLine (toString c) :=
  isOneLine_ofList (List.mem_singleton.not.mpr h.symm)

theorem isOneLine_intercalate (hs : IsOneLine s) (h : ∀ name, name ∈ names → IsOneLine name) :
    IsOneLine (s.intercalate names) := by
  induction names with
  | nil => exact List.not_mem_nil
  | cons name names ih =>
    have hname := h name List.mem_cons_self
    have hnames := ih fun other ho => h other (List.mem_cons_of_mem name ho)
    cases names with
    | nil => exact hname
    | cons other names =>
      rw [String.intercalate_cons_cons]
      exact (hname.append hs).append hnames

theorem isOneLine_braced (h : ∀ name, name ∈ names → IsOneLine name) : IsOneLine (braced names) :=
  (IsOneLine.append (by decide) (isOneLine_intercalate (by decide) h)).append (by decide)

theorem lines_append (hs : ∀ c, c ∈ s.toList.getLast? → c = '\n') :
    lines (s ++ t).toList = lines s.toList ++ lines t.toList := by
  unfold lines
  rw [String.toList_append]
  apply List.splitBy_append
  intro c hc d _
  rw [hs c hc]
  rfl

theorem toList_append_lineFeed : (s ++ "\n").toList = s.toList ++ ['\n'] := String.toList_append

theorem lines_append_lineFeed (hs : IsOneLine s) :
    lines (s ++ "\n").toList = [(s ++ "\n").toList] := by
  rw [toList_append_lineFeed]
  apply List.splitBy_of_isChain (List.concat_ne_nil _ _)
  rw [List.isChain_iff_getElem]
  intro i hi
  rw [List.length_append, List.length_singleton] at hi
  -- Every character but the last is one of `s`.
  rw [List.getElem_append_left (by omega), bne_iff_ne]
  intro h
  exact hs (h ▸ List.getElem_mem _)

/--
Whether a text consists of whole lines, of which those without the mark make up another text.
-/
structure Leaves (mark : List Char) (s t : String) : Prop where
  whole : ∀ c, c ∈ s.toList.getLast? → c = '\n'
  withoutMarked_eq : withoutMarked mark s = t

abbrev Keeps (mark : List Char) (s : String) : Prop := Leaves mark s s

theorem leaves_iff : Leaves mark s t ↔
    s.toList.getLast?.all (· == '\n') = true ∧ withoutMarked mark s = t := by
  simp only [Option.all_eq_true, beq_iff_eq]
  constructor
  · rintro ⟨h, h'⟩
    exact ⟨h, h'⟩
  · rintro ⟨h, h'⟩
    exact ⟨h, h'⟩

instance : Decidable (Leaves mark s t) := decidable_of_iff _ leaves_iff.symm

theorem leaves_empty : Leaves mark "" "" where
  whole := nofun
  withoutMarked_eq := rfl

theorem Leaves.append (hs : Leaves mark s t) (hu : Leaves mark u v) :
    Leaves mark (s ++ u) (t ++ v) where
  whole := by
    intro c hc
    rw [String.toList_append, List.getLast?_append, Option.mem_def, Option.or_eq_some_iff] at hc
    rcases hc with hc | ⟨_, hc⟩
    · exact hu.whole c hc
    · exact hs.whole c hc
  withoutMarked_eq := by
    rw [← hs.withoutMarked_eq, ← hu.withoutMarked_eq]
    unfold withoutMarked
    rw [lines_append hs.whole, List.filter_append, List.flatten_append, String.ofList_append]

theorem leaves_join {f g : α → String} {as : List α} (h : ∀ a, a ∈ as → Leaves mark (f a) (g a)) :
    Leaves mark (String.join (as.map f)) (String.join (as.map g)) := by
  induction as with
  | nil => exact leaves_empty
  | cons a as ih =>
    rw [List.map_cons, List.map_cons, String.join_cons, String.join_cons]
    exact (h a List.mem_cons_self).append (ih fun b hb => h b (List.mem_cons_of_mem a hb))

theorem leaves_lineFeed (hs : IsOneLine s) :
    Leaves mark (s ++ "\n") (if mark.isPrefixOf (s ++ "\n").toList then "" else s ++ "\n") where
  whole := by simp
  withoutMarked_eq := by
    unfold withoutMarked
    rw [lines_append_lineFeed hs, List.filter_singleton]
    cases mark.isPrefixOf (s ++ "\n").toList with
    | true => rfl
    | false => simp

theorem leaves_of_isPrefix (hs : IsOneLine s) (hm : mark <+: (s ++ "\n").toList) :
    Leaves mark (s ++ "\n") "" := by
  have h : Leaves mark (s ++ "\n") _ := leaves_lineFeed hs
  rw [if_pos (List.isPrefixOf_iff_prefix.mpr hm)] at h
  exact h

example : withoutMarked ['#'] "a\n#b\n\n #c\n" = "a\n\n #c\n" := by decide

/--
Whether a text can only begin lines without the mark: where the two are written side by side, they
differ before either of them ends.
-/
structure Begins (mark : List Char) (p : String) : Prop where
  isOneLine : IsOneLine p
  not_mark_isPrefix : ¬ mark <+: p.toList
  not_isPrefix_mark : ¬ p.toList <+: mark

instance : Decidable (Begins mark p) :=
  decidable_of_iff (IsOneLine p ∧ ¬ mark <+: p.toList ∧ ¬ p.toList <+: mark)
    ⟨fun ⟨h, h', h''⟩ => ⟨h, h', h''⟩, fun ⟨h, h', h''⟩ => ⟨h, h', h''⟩⟩

theorem Begins.not_mark_isPrefix_append (hp : Begins mark p) : ¬ mark <+: (p ++ s).toList := by
  rw [String.toList_append]
  intro hm
  rcases List.prefix_or_prefix_of_prefix hm (List.prefix_append _ _) with h | h
  · exact hp.not_mark_isPrefix h
  · exact hp.not_isPrefix_mark h

theorem Begins.append (hp : Begins mark p) (hs : IsOneLine s) : Begins mark (p ++ s) where
  isOneLine := hp.isOneLine.append hs
  not_mark_isPrefix := hp.not_mark_isPrefix_append
  not_isPrefix_mark := by
    rw [String.toList_append]
    intro hm
    exact hp.not_isPrefix_mark ((List.prefix_append _ _).trans hm)

theorem Begins.keeps (hp : Begins mark p) : Keeps mark (p ++ "\n") := by
  have h : Leaves mark (p ++ "\n") _ := leaves_lineFeed hp.isOneLine
  rw [if_neg (List.isPrefixOf_iff_prefix.not.mpr hp.not_mark_isPrefix_append)] at h
  exact h

theorem Leaves.line (hu : Leaves mark u v) (hp : Begins mark p) (hs : IsOneLine s) :
    Leaves mark (u ++ p ++ s ++ "\n") (v ++ p ++ s ++ "\n") := by
  have h := hu.append (hp.append hs).keeps
  simp only [← String.append_assoc] at h
  exact h

end Text

end RegLang
