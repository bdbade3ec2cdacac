import RegLang.Automaton.Definition
import RegLang.Grammar.Definition
import RegLang.Grammar.RuleText

/-!
This module contains the loading of grammars and automata from named files.
-/

namespace RegLang

abbrev Files := String → Option ByteArray

namespace Files

def text (files : Files) (name : String) : Except Error (List Char) :=
  match files name with
  | none => .error (.file .missing)
  | some bytes =>
    match String.fromUTF8? bytes with
    | some s => .ok s.toList
    | none => .error (.file .notUtf8)

/--
The last component of a path; separators at its end do not count.
-/
def lastComponent (path : List Char) : List Char :=
  let components := (path.splitOn '/').filter fun c => c != [] && c != ['.']
  components.getLast?.getD []

/--
What follows the last dot of a file's name, unless the dot begins the name.
-/
def extension? (path : List Char) : Option (List Char) :=
  let name := lastComponent path
  if name = ['.', '.'] then
    none
  else
    let reversed := name.reverse
    let stem := (reversed.dropWhile (· != '.')).drop 1
    if stem.isEmpty then none else some (reversed.takeWhile (· != '.')).reverse

def isJson (path : String) : Bool :=
  (extension? path.toList).any fun e => e.map Char.toLower == ['j', 's', 'o', 'n']

def loadGrammar (files : Files) (path : String) : Except Error Grammar := do
  let text ← files.text path
  if isJson path then
    (← Grammar.Definition.ofJson text).toGrammar
  else
    Grammar.ofRuleText text

def loadAutomaton (files : Files) (path : String) : Except Error (Automaton String) := do
  (← Automaton.Definition.ofJson (← files.text path)).toAutomaton

end Files

end RegLang
