import RegLang.Grammar.Basic

/-!
This module contains the place of a grammar in the Chomsky hierarchy.
-/

namespace RegLang

inductive ChomskyType where
  | unrestricted
  | contextSensitive
  | contextFree
  | regular
  deriving Repr, DecidableEq

namespace ChomskyType

def level : ChomskyType → Nat
  | unrestricted => 0
  | contextSensitive => 1
  | contextFree => 2
  | regular => 3

instance : LE ChomskyType := ⟨fun s t => s.level ≤ t.level⟩

instance (s t : ChomskyType) : Decidable (s ≤ t) := inferInstanceAs (Decidable (s.level ≤ t.level))

def text : ChomskyType → String
  | unrestricted => "Type 0: Unrestricted Grammar"
  | contextSensitive => "Type 1: Context-Sensitive Grammar"
  | contextFree => "Type 2: Context-Free Grammar"
  | regular => "Type 3: Regular Grammar"

instance : ToString ChomskyType := ⟨text⟩

end ChomskyType

structure Classification where
  unrestricted : Bool
  contextSensitive : Bool
  contextFree : Bool
  regular : Bool
  deriving Repr, DecidableEq

namespace Classification

/--
The most restrictive level passed. The regular check stands on its own; the context-free level needs
the context-sensitive check as well.
-/
def mostSpecific (c : Classification) : ChomskyType :=
  if c.regular then .regular
  else if c.contextSensitive && c.contextFree then .contextFree
  else if c.contextSensitive then .contextSensitive
  else .unrestricted

/--
Whether a grammar can be treated as one of level `t`. A regular grammar counts as context-sensitive
even if its start symbol can vanish and stands on a right-hand side.
-/
def satisfies (c : Classification) (t : ChomskyType) : Bool :=
  match t with
  | .unrestricted => c.unrestricted
  | .contextSensitive => c.contextSensitive || c.regular
  | .contextFree => c.contextFree
  | .regular => c.regular

end Classification

namespace Grammar

def startRecurs (g : Grammar) : Bool :=
  g.rules.any fun r => r.2.contains (.nonTerminal g.start)

def isRegularRule (g : Grammar) (lhs : Char) (p : Production) : Bool :=
  match p.shape with
  | .empty => lhs == g.start
  | .letter _ => true
  | .step _ _ => true
  | .other => false

/--
The checks of all levels. Every left-hand side is a single non-terminal, so the checks for
unrestricted and context-free grammars always pass.
-/
def classification (g : Grammar) : Classification :=
  let startRecurs := g.startRecurs
  { unrestricted := true
    contextSensitive := g.rules.all fun r => !r.2.isEmpty || (r.1 == g.start && !startRecurs)
    contextFree := true
    regular := g.rules.all fun r => g.isRegularRule r.1 r.2 }

def classify (g : Grammar) : ChomskyType := g.classification.mostSpecific

end Grammar

end RegLang
