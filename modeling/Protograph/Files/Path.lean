/-
  Protograph.Files.Path — paths as texts: joining them, what stands before their last
  part, and the ending of their last part.
-/

import Protograph.Text.Segments

namespace Protograph.Path

def isAbsolute (path : String) : Bool := path.toList.head? == some '/'

/-- A path below a directory; an absolute one is itself. -/
def join (directory path : String) : String :=
  if isAbsolute path then path
  else match directory.toList.getLast? with
    | none => path
    | some c => directory ++ (if c = '/' then "" else "/") ++ path

/-- The parts of a path in reverse, with the number of characters up to the end of each.
    Empty parts and those that say "here" are no parts, except "here" at the beginning. -/
def partsBackward (path : String) : List (String × Nat) :=
  let parts := (Text.split '/' path).foldl
    (fun (acc : List (String × Nat) × Nat) s => ((s, acc.2 + s.length) :: acc.1, acc.2 + s.length + 1)) ([], 0)
  parts.1.filter fun (s, stop) => s ≠ "" && (s ≠ "." || stop = 1)

/-- What stands before the last part; `none` for a path without parts. -/
def parent? (path : String) : Option String :=
  match partsBackward path with
  | [] => none
  | [_] => some (if isAbsolute path then "/" else "")
  | _ :: (_, stop) :: _ => some (String.ofList (path.toList.take stop))

/-- The name of the file, unless the path ends in a step upwards. -/
def fileName? (path : String) : Option String :=
  match partsBackward path with
  | (name, _) :: _ => if name = ".." || name = "." then none else some name
  | [] => none

/-- What follows the last dot of the file's name, if anything stands before that dot. -/
def extension? (path : String) : Option String := do
  let name ← fileName? path
  let (stem, ending) ← Text.cutLastDot name
  if stem = "" then none else some ending

/-- Whether a file of the path is a JSON document. -/
def isJson (path : String) : Bool := (extension? path).any fun e => Text.asciiLower e == "json"

end Protograph.Path
