/-
  Protograph.CommandLine — the command line: its arguments, and what a run does over a
  store of files.

  A run loads the documents and compiles them. If an entity failed it stops there, unless
  partial output is allowed. Then it writes the descriptor set, if asked to, and prints
  the `.proto` texts or writes them below the output directory.
-/

import Protograph.Compile.Query
import Protograph.Files.Documents
import Protograph.Files.Publish

namespace Protograph

structure Arguments where
  inputs : List String := []
  output : Option String := none
  standardPackage : Option String := none
  allowPartial : Bool := false
  stdout : Bool := false
  setPath : Option String := none
  verbose : Bool := false
  deriving DecidableEq, Repr

/-- What arguments that name no run ask for. -/
inductive Usage
  | help
  | wrong
  deriving DecidableEq, Repr

namespace Arguments

/-- An option or a flag of the command line. -/
inductive Switch
  | output
  | package
  | setPath
  | allowPartial
  | stdout
  | verbose
  | help
  deriving DecidableEq, Repr

namespace Switch

def ofLong? (name : String) : Option Switch :=
  [("output", output), ("default-package", package), ("descriptor-set-out", setPath), ("allow-partial", allowPartial),
   ("stdout", stdout), ("verbose", verbose), ("help", help)].lookup name

def ofShort? (c : Char) : Option Switch := [('o', output), ('v', verbose), ('h', help)].lookup c

def takesValue : Switch → Bool
  | output | package | setPath => true
  | _ => false

end Switch

/-- Sets a flag that is not set yet. -/
def setFlag (a : Arguments) : Switch → Except Usage Arguments
  | .allowPartial => if a.allowPartial then .error .wrong else .ok { a with allowPartial := true }
  | .stdout => if a.stdout then .error .wrong else .ok { a with stdout := true }
  | .verbose => if a.verbose then .error .wrong else .ok { a with verbose := true }
  | .help => .error .help
  | _ => .error .wrong

/-- Gives a value to an option that has none yet. Paths are not empty. -/
def setOption (a : Arguments) (value : String) : Switch → Except Usage Arguments
  | .output => if a.output.isSome || value = "" then .error .wrong else .ok { a with output := some value }
  | .package => if a.standardPackage.isSome then .error .wrong else .ok { a with standardPackage := some value }
  | .setPath => if a.setPath.isSome || value = "" then .error .wrong else .ok { a with setPath := some value }
  | _ => .error .wrong

def addInput (a : Arguments) (path : String) : Except Usage Arguments :=
  if path = "" then .error .wrong else .ok { a with inputs := a.inputs ++ [path] }

/-- Short switches run together; what follows one that takes a value is the value, and
    one at the end has its value in the next argument. -/
def addShort (a : Arguments) : List Char → Except Usage (Arguments × Option Switch)
  | [] => .ok (a, none)
  | c :: cs => match Switch.ofShort? c with
    | none => .error .wrong
    | some s =>
      if !s.takesValue then do
        let a ← a.setFlag s
        addShort a cs
      else match cs with
        | [] => .ok (a, some s)
        | '=' :: value => (a.setOption (String.ofList value) s).map (·, none)
        | value => (a.setOption (String.ofList value) s).map (·, none)

/-- A long switch without its hyphens. -/
def addLong (a : Arguments) (body : List Char) : Except Usage (Arguments × Option Switch) :=
  let (name, value) := match Text.cutFirst '=' body with
    | some (name, value) => (name, some (String.ofList value))
    | none => (body, none)
  match Switch.ofLong? (String.ofList name), value with
  | none, _ => .error .wrong
  | some s, some v => if s.takesValue then (a.setOption v s).map (·, none) else .error .wrong
  | some s, none => if s.takesValue then .ok (a, some s) else (a.setFlag s).map (·, none)

/-- Reads arguments one after another. `waiting` is an option whose value comes next. -/
def addAll (a : Arguments) (waiting : Option Switch) : List String → Except Usage Arguments
  | [] => if waiting.isSome then .error .wrong else .ok a
  | arg :: rest =>
    match waiting, arg.toList with
    | some s, '-' :: _ :: _ => (fun _ => .error .wrong) s
    | some s, _ => do
      let a ← a.setOption arg s
      addAll a none rest
    | none, ['-', '-'] => rest.foldlM addInput a
    | none, '-' :: '-' :: body => do
      let (a, waiting) ← a.addLong body
      addAll a waiting rest
    | none, '-' :: c :: cs => do
      let (a, waiting) ← a.addShort (c :: cs)
      addAll a waiting rest
    | none, _ => do
      let a ← a.addInput arg
      addAll a none rest

/-- The arguments of a run, with at least one input. -/
def parse (args : List String) : Except Usage Arguments := do
  let a ← addAll {} none args
  if a.inputs.isEmpty then .error .wrong else .ok a

end Arguments

/-- Why a run fails. -/
inductive RunError
  | load (error : LoadError)
  | compile (error : CompileError)
  | entities (count : Nat) (summary : String)
  | write (error : WriteError)

/-- The error as the program reports it; what the file system says stays out. -/
def RunError.report : RunError → String
  | load (.unreadable _) => "Io"
  | load (.invalid _ _ _) => "Schema"
  | load (.duplicateEntity name) => "Graph(DuplicateEntity(" ++ Text.quoted name ++ "))"
  | compile (.duplicateEntity name) => "DuplicateEntity(" ++ Text.quoted name ++ ")"
  | compile (.assembly file fault) =>
    "AssemblyFailure \x7b file: " ++ Text.quoted file ++ ", reason: " ++ Text.quoted fault.message ++ " \x7d"
  | entities count summary =>
    "EntitiesFailed \x7b count: " ++ toString count ++ ", summary: " ++ Text.quoted summary ++ " \x7d"
  | write _ => "Io"

/-- What a run without error prints. -/
structure Printed where
  stdout : String := ""
  /-- The line that says what was written. -/
  summary : Option String := none

/-- What a run prints on the standard output: nothing, if it fails. -/
def Printed.stdoutOf : Except RunError Printed → String
  | .ok p => p.stdout
  | .error _ => ""

namespace Run

variable {m : Type → Type} [Monad m]

def lift {ε α : Type} (wrap : ε → RunError) (act : ExceptT ε m α) : ExceptT RunError m α := do
  match ← (act.run : m (Except ε α)) with
  | .ok x => return x
  | .error e => throw (wrap e)

/-- The failed entities with their errors, in one line. -/
def failures (c : Compiled) : String :=
  String.intercalate "; " (c.errors.map fun (e, x) => e ++ ": " ++ x.message)

/-- All units as printed. -/
def printed (units : List PackageUnit) : String :=
  String.join (units.map fun u => "// " ++ u.path ++ "\n" ++ u.render (Namespaces.ofUnits units))

def summary (written : Nat) (output : String) (units : List PackageUnit) : String :=
  "Generated " ++ toString written ++ " proto file(s) in " ++ output ++ " for " ++
    toString (units.flatMap (·.entities)).length ++ " entities"

/-- Writes or prints what was compiled. -/
def emit (store : FileStore m) (a : Arguments) (c : Compiled) : ExceptT RunError m Printed := do
  if c.units.isEmpty then return {}
  else
    if let some path := a.setPath then
      unless ← store.write path c.set.encode do throw (.write ⟨path⟩)
    if a.stdout then return { stdout := printed c.units }
    else
      let output := a.output.getD "proto"
      let written ← lift .write (publish store c.units output)
      return { summary := some (summary written.length output c.units) }

/-- A run of the program. -/
def run (store : FileStore m) (a : Arguments) : ExceptT RunError m Printed := do
  let graph ← lift .load (loadGraph store a.inputs)
  match compile graph (a.standardPackage.getD standardPackage) with
  | .error e => throw (.compile e)
  | .ok c =>
    if !c.errors.isEmpty && !a.allowPartial then throw (.entities c.errors.length (failures c))
    else emit store a c

end Run

end Protograph
