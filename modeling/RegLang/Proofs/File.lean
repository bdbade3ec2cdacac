import RegLang.File
import RegLang.Proofs.Automaton.Definition
import RegLang.Proofs.Conversion.Validity

/-!
This module contains the loading of automata from files: what is loaded is valid, and what is stored
can be loaded.
-/

namespace RegLang

namespace Files

variable {files : Files} {name text : String} {A : Automaton String}

theorem text_eq (h : files name = some text.toUTF8) : files.text name = .ok text.toList := by
  have hdecode : String.fromUTF8? text.toUTF8 = some text := by
    unfold String.fromUTF8?
    exact dif_pos text.isValidUTF8
  unfold Files.text
  rw [h]
  dsimp only
  rw [hdecode]

theorem isValid_of_loadAutomaton (h : files.loadAutomaton name = .ok A) : A.IsValid := by
  unfold loadAutomaton at h
  rcases exists_of_bind_eq_ok h with ⟨text, _, h⟩
  rcases exists_of_bind_eq_ok h with ⟨d, _, h⟩
  exact Automaton.isValid_of_checked h

theorem loadAutomaton_eq (hA : A.IsValid)
    (h : files name =
      some (String.ofList (Automaton.Definition.ofAutomaton A).toJson.pretty).toUTF8) :
    files.loadAutomaton name = .ok A := by
  have hreload : A.reload = .ok A := by
    rw [Automaton.reload_eq hA, Automaton.Definition.map_toString_eq hA]
  unfold loadAutomaton
  rw [text_eq h, Json.Reader.ok_bind, String.toList_ofList]
  exact hreload

end Files

end RegLang
