/-!
This module contains what the program can be asked for, and the reading of its arguments.
-/

namespace RegLang

namespace CommandLine

inductive Command where
  | grammar (file : String) (count : Nat) (checks : List String) (maxDepth : Option Nat)
  | automaton (file : String) (checks : List String)
  | demo
  deriving Repr, DecidableEq

structure Invocation where
  trace : Bool
  command : Command
  deriving Repr, DecidableEq

inductive Verb where
  | grammar
  | automaton
  | demo
  deriving Repr, DecidableEq

inductive Setting where
  | count
  | check
  | maxDepth
  deriving Repr, DecidableEq

namespace Verb

def ofText? : String → Option Verb
  | "grammar" => some grammar
  | "automaton" => some automaton
  | "demo" => some demo
  | _ => none

def long? : Verb → String → Option Setting
  | grammar, "count" => some .count
  | grammar, "check" => some .check
  | grammar, "max-depth" => some .maxDepth
  | automaton, "check" => some .check
  | _, _ => none

def short? : Verb → Char → Option Setting
  | grammar, 'c' => some .count
  | _, _ => none

end Verb

inductive Argument where
  | long (name : String) (value : Option String)
  | short (name : Char) (value : Option String)
  /-- A lone `--`: no argument after it is an option. -/
  | endOfOptions
  | plain (text : String)
  deriving Repr, DecidableEq

namespace Argument

def ofText (text : String) : Argument :=
  match text.toList with
  | ['-', '-'] => endOfOptions
  | '-' :: '-' :: cs =>
    let name := String.ofList (cs.takeWhile (· != '='))
    match cs.dropWhile (· != '=') with
    | [] => long name none
    | _ :: value => long name (some (String.ofList value))
  | ['-', name] => short name none
  | '-' :: name :: '=' :: value => short name (some (String.ofList value))
  | '-' :: name :: value => short name (some (String.ofList value))
  | _ => plain text

def isValue (text : String) : Bool :=
  match ofText text with
  | plain _ => true
  | _ => false

end Argument

def withoutPlus : List Char → List Char
  | '+' :: cs => cs
  | cs => cs

/--
A count below `2 ^ 64`: decimal digits, perhaps after a plus sign.
-/
def count? (text : String) : Option Nat :=
  let digits := withoutPlus text.toList
  let n := digits.foldl (fun n d => n * 10 + (d.toNat - 48)) 0
  if !digits.isEmpty && digits.all Char.isDigit && n < UInt64.size then some n else none

structure Draft where
  trace : Bool := false
  file : Option String := none
  count : Option Nat := none
  checks : List String := []
  maxDepth : Option Nat := none
  deriving Repr, DecidableEq

namespace Draft

def addPlain? (verb : Verb) (d : Draft) (text : String) : Option Draft :=
  if verb = .demo ∨ d.file.isSome ∨ text = "" then none else some { d with file := some text }

def addTrace? (d : Draft) : Option Draft := if d.trace then none else some { d with trace := true }

/--
Take an option with its value. Only strings to check can be given repeatedly.
-/
def set? (d : Draft) (setting : Setting) (value : String) : Option Draft :=
  match setting with
  | .check => some { d with checks := d.checks ++ [value] }
  | .count =>
    if d.count.isSome then none else (count? value).map fun n => { d with count := some n }
  | .maxDepth =>
    if d.maxDepth.isSome then none else (count? value).map fun n => { d with maxDepth := some n }

def read? (verb : Verb) (d : Draft) : List String → Option Draft
  | [] => some d
  | arg :: args =>
    match Argument.ofText arg with
    | .endOfOptions => args.foldlM (addPlain? verb) d
    | .plain text => do (← d.addPlain? verb text).read? verb args
    | .long name value =>
      if name = "trace" ∧ value = none then do
        (← d.addTrace?).read? verb args
      else do
        let setting ← verb.long? name
        match value, args with
        | some value, args => (← d.set? setting value).read? verb args
        | none, value :: args =>
          if Argument.isValue value then (← d.set? setting value).read? verb args else none
        | none, [] => none
    | .short name value => do
      let setting ← verb.short? name
      match value, args with
      | some value, args => (← d.set? setting value).read? verb args
      | none, value :: args =>
        if Argument.isValue value then (← d.set? setting value).read? verb args else none
      | none, [] => none

def command? (verb : Verb) (d : Draft) : Option Command :=
  match verb with
  | .grammar => d.file.map fun file => .grammar file (d.count.getD 5) d.checks d.maxDepth
  | .automaton => d.file.map fun file => .automaton file d.checks
  | .demo => some .demo

end Draft

/--
Read the arguments of the program. Printing of events can be turned on before the verb and after it.
-/
def Invocation.ofArguments? : List String → Option Invocation
  | [] => none
  | first :: args =>
    if first = "--trace" then
      match args with
      | [] => none
      | verb :: args => ofVerb? true verb args
    else
      ofVerb? false first args
where
  ofVerb? (trace : Bool) (verb : String) (args : List String) : Option Invocation := do
    let verb ← Verb.ofText? verb
    let draft ← Draft.read? verb {} args
    return { trace := trace || draft.trace, command := ← draft.command? verb }

end CommandLine

end RegLang
