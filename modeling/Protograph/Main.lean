/-
  Protograph.Main — the program over the files of the system.
-/

import Protograph.CommandLine

namespace Protograph

/-- Whether an action on files succeeds. -/
def succeeds (act : IO PUnit) : IO Bool := do
  try
    act
    return true
  catch _ => return false

/-- The files of the system as a store. -/
def systemStore : FileStore IO :=
  { readText := fun path => do
      try
        return some (← IO.FS.readFile path)
      catch _ => return none
    makeDirectory := fun path => if path = "" then return true else succeeds (IO.FS.createDirAll path)
    write := fun path bs => succeeds (IO.FS.writeBinFile path ⟨bs.toArray⟩) }

def usage : String := "Usage: synapse-proto-gen [OPTIONS] <INPUT>..."

/-- Runs the program and gives its exit code. -/
def runMain (args : List String) : IO UInt32 := do
  match Arguments.parse args with
  | .error .help =>
    IO.println usage
    return 0
  | .error .wrong =>
    IO.eprintln usage
    return 2
  | .ok a =>
    let result ← (Run.run systemStore a).run
    IO.print (Printed.stdoutOf result)
    match result with
    | .error e =>
      IO.eprintln ("Error: " ++ e.report)
      return 1
    | .ok p =>
      if let some line := p.summary then IO.eprintln line
      return 0

end Protograph

def main (args : List String) : IO UInt32 := Protograph.runMain args
