import RegLang.CommandLine.Program

/-!
This module contains the program's contact with the outside: its arguments, the file system,
random words and the standard output.
-/

namespace RegLang

def readFile? (name : String) : IO (Option ByteArray) := do
  try
    return some (← IO.FS.readBinFile name)
  catch _ =>
    return none

/--
Random words, enough for all but the longest generations.
-/
def randomWords (count : Nat) : IO (List UInt32) :=
  (List.range count).mapM fun _ => return (← IO.rand 0 (UInt32.size - 1)).toUInt32

def CommandLine.Command.file? : CommandLine.Command → Option String
  | .grammar file _ _ _ => some file
  | .automaton file _ => some file
  | .demo => none

end RegLang

def main (arguments : List String) : IO UInt32 := do
  let file? :=
    (RegLang.CommandLine.Invocation.ofArguments? arguments).bind fun i => i.command.file?
  let content? ←
    match file? with
    | some file => RegLang.readFile? file
    | none => pure none
  let files : RegLang.Files := fun name => if some name = file? then content? else none
  let outcome := RegLang.CommandLine.run arguments files ⟨← RegLang.randomWords 100000, 0⟩
  IO.print outcome.output
  return outcome.exitCode.toUInt32
