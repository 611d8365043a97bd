/-
  Protograph.Descriptor.Symbol — the messages and enumerations of a set of files by their
  full names, and looking a name up from where it is written.

  A name is looked up in the innermost scope first: in the scope itself, in what is left
  of it when it is cut at its last dot, and so on, and last at the root. A name that
  begins with a dot is a full name.
-/

import Protograph.Descriptor.Basic
import Protograph.Fault

namespace Protograph

inductive SymbolKind
  | message
  | enumeration
  deriving DecidableEq, Repr

/-- A message or enumeration with its full name and the file that defines it. -/
structure Symbol where
  name : String
  kind : SymbolKind
  file : String
  deriving DecidableEq, Repr

/-- Symbols in the order defined. -/
abbrev Symbols := List Symbol

theorem cutLast_length {sep : Char} {t a b : List Char} (h : Text.cutLast sep t = some (a, b)) :
    a.length < t.length := by
  have := (Text.cutLast_eq_some h).1
  simp [this]

/-- A scope and the scopes around it, innermost first; the last one is the root. -/
def enclosing (scope : List Char) : List (List Char) :=
  if scope = [] then [[]]
  else scope :: match _h : Text.cutLast '.' scope with
    | some (outer, _) => enclosing outer
    | none => [[]]
termination_by scope.length
decreasing_by exact cutLast_length _h

/-- A scope and the scopes around it, as names. -/
def enclosingScopes (scope : String) : List String := (enclosing scope.toList).map String.ofList

mutual

/-- The message, then what is nested in it, as symbols. -/
def Message.symbols (file scope : String) : Message → Symbols
  | ⟨name, _, enums, nested⟩ =>
    ⟨qualify scope name, .message, file⟩ :: (Message.symbolsAll file (qualify scope name) nested ++
      enums.map fun e => ⟨qualify (qualify scope name) e.name, .enumeration, file⟩)

def Message.symbolsAll (file scope : String) : List Message → Symbols
  | [] => []
  | m :: ms => m.symbols file scope ++ Message.symbolsAll file scope ms

end

def ProtoFile.symbols (f : ProtoFile) : Symbols :=
  Message.symbolsAll f.path f.package f.messages ++
    f.enums.map fun e => ⟨qualify f.package e.name, .enumeration, f.path⟩

namespace Symbols

def find? (t : Symbols) (name : String) : Option Symbol := List.find? (·.name == name) t

/-- The symbol that a name written inside a scope stands for. -/
def resolve (t : Symbols) (scope name : String) : Option Symbol :=
  match name.toList with
  | '.' :: full => t.find? (String.ofList full)
  | _ => (enclosingScopes scope).findSome? fun s => t.find? (qualify s name)

/-- Adds symbols one after another, unless one has a name that is taken. -/
def addAll (t : Symbols) : List Symbol → Except CompileError Symbols
  | [] => .ok t
  | s :: ss => match t.find? s.name with
    | some taken => .error (.assembly s.file (.alreadyDefined s.name taken.file))
    | none => addAll (t ++ [s]) ss

/-- The symbols of some files, no two of one name. -/
def ofFiles (files : List ProtoFile) : Except CompileError Symbols := addAll [] (files.flatMap ProtoFile.symbols)

end Symbols

end Protograph
