/-
  Protograph.Files.Store — the file operations that the program needs, and a tree of
  files as a store in memory.

  A tree knows its files and directories by where they are from the directory that paths
  start in. Writing needs the directory of the file, and does not make it.
-/

import Protograph.Files.Path
import Protograph.Descriptor.Wire

namespace Protograph

/-- Reading, making and writing files; nothing and `false` when that fails. -/
structure FileStore (m : Type → Type) where
  /-- The text of a file, if it is one. -/
  readText : String → m (Option String)
  /-- Makes a directory and those around it. -/
  makeDirectory : String → m Bool
  /-- Writes a file, in place of the one there. -/
  write : String → Bytes → m Bool

/-- Where a file or directory is: the steps that lead to it. -/
abbrev Location := List String

/-- Files with their bytes, and directories. -/
structure FileTree where
  files : List (Location × Bytes)
  directories : List Location

namespace FileTree

def empty : FileTree := ⟨[], []⟩

def bytes? (t : FileTree) (l : Location) : Option Bytes := t.files.lookup l

/-- Every directory that steps upwards lead to is there. -/
def isDirectory (t : FileTree) (l : Location) : Bool := l.all (· = "..") || l = ["/"] || t.directories.contains l

/-- The longest that one step and a whole path may be, in bytes. -/
def maxStep : Nat := 255

def maxPath : Nat := 4095

/-- Whether files can have such a path at all. -/
def isUsable (path : String) : Bool :=
  path ≠ "" && path.utf8ByteSize ≤ maxPath && !path.toList.contains '\x00' &&
    (Text.split '/' path).all fun s => s.utf8ByteSize ≤ maxStep

/-- The steps of a path, and whether it must be that of a directory. -/
def steps (path : String) : List String × Bool :=
  let segments := Text.split '/' path
  let last := segments.getLast?.getD ""
  ((if Path.isAbsolute path then ["/"] else []) ++ segments.filter fun s => s ≠ "" && s ≠ ".",
    last = "" || last = "." || last = "..")

/-- Where one step leads from a directory. -/
def step (l : Location) (s : String) : Location :=
  if s = "/" then ["/"]
  else if s = ".." then
    if l.all (· = "..") then l ++ [".."] else if l = ["/"] then l else l.dropLast
  else l ++ [s]

/-- Where some steps lead, if all but the last lead to directories. -/
def walk (t : FileTree) (l : Location) : List String → Option Location
  | [] => some l
  | s :: ss => if t.isDirectory l then walk t (step l s) ss else none

/-- Where a path leads, and whether it must be to a directory. -/
def locate (t : FileTree) (path : String) : Option (Location × Bool) :=
  if isUsable path then (t.walk [] (steps path).1).map (·, (steps path).2) else none

def read (t : FileTree) (path : String) : Option Bytes :=
  match t.locate path with
  | some (l, false) => t.bytes? l
  | _ => none

/-- The text of a file, if its bytes are one. -/
def readText (t : FileTree) (path : String) : Option String :=
  (t.read path).bind fun bs => String.fromUTF8? ⟨bs.toArray⟩

/-- Makes directories along some steps. -/
def makeAlong (t : FileTree) (l : Location) : List String → Option FileTree
  | [] => some t
  | s :: ss =>
    let l := step l s
    if t.isDirectory l then makeAlong t l ss
    else if (t.bytes? l).isSome then none
    else makeAlong { t with directories := l :: t.directories } l ss

def makeDirectory (t : FileTree) (path : String) : Option FileTree :=
  if path = "" then some t
  else if isUsable path then t.makeAlong [] (steps path).1
  else none

def put (t : FileTree) (l : Location) (bs : Bytes) : FileTree :=
  { t with files :=
      if (t.bytes? l).isSome then t.files.map fun f => if f.1 = l then (l, bs) else f else t.files ++ [(l, bs)] }

def write (t : FileTree) (path : String) (bs : Bytes) : Option FileTree :=
  match t.locate path with
  | some (l, false) => if t.isDirectory l || !t.isDirectory l.dropLast then none else some (t.put l bs)
  | _ => none

/-- Puts a file into the tree, with the directories around it. -/
def withFile (t : FileTree) (path : String) (bs : Bytes) : FileTree :=
  let t := (t.makeDirectory ((Path.parent? path).getD "")).getD t
  (t.write path bs).getD t

/-- The files, by paths without needless steps. -/
def listing (t : FileTree) : List (String × Bytes) := t.files.map fun f => (String.intercalate "/" f.1, f.2)

/-- Keeps the new tree if there is one. -/
def attempt (change : FileTree → Option FileTree) : StateM FileTree Bool := fun t =>
  match change t with
  | some t => (true, t)
  | none => (false, t)

/-- A tree as a store. -/
def store : FileStore (StateM FileTree) :=
  { readText := fun path => return (← get).readText path
    makeDirectory := fun path => attempt (·.makeDirectory path)
    write := fun path bs => attempt (·.write path bs) }

end FileTree

end Protograph
