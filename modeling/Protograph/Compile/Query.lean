/-
  Protograph.Compile.Query — what can be asked of a compiled graph: the outcome of each
  entity, the file and the message made for it, and what a message holds.

  An entity has a file and a message if and only if it is generated; otherwise the answer
  is the error that says why there is none.
-/

import Protograph.Compile.Compilation

namespace Protograph

mutual

/-- The message and everything nested in it, by full name. -/
def Message.named (scope : String) : Message → List (String × Message)
  | ⟨name, fields, enums, nested⟩ =>
    (qualify scope name, ⟨name, fields, enums, nested⟩) :: Message.namedAll (qualify scope name) nested

def Message.namedAll (scope : String) : List Message → List (String × Message)
  | [] => []
  | m :: ms => m.named scope ++ Message.namedAll scope ms

end

/-- The message of a full name, and the name without the dot that may lead it. -/
def DescriptorSet.message? (s : DescriptorSet) (fullName : String) : Option (String × Message) :=
  let name := Text.withoutLeadingDot fullName
  ((s.all.flatMap fun f => Message.namedAll f.package f.messages).lookup name).map (name, ·)

/-- The fields in the order of their numbers. -/
def Message.fieldsByNumber (m : Message) : List Field := m.fields.mergeSort fun a b => a.number ≤ b.number

/-- What a field with a full type name holds: a scalar type, or a named message or
    enumeration. -/
def Field.holds (f : Field) : String :=
  let name := Text.withoutLeadingDot (f.typeName.getD "")
  match f.type with
  | .message => "message " ++ name
  | .enumeration => "enum " ++ name
  | t => t.keyword

/-- The full names of the messages of a file that are nested in none. -/
def ProtoFile.messageNames (f : ProtoFile) : List String := f.messages.map fun m => qualify f.package m.name

def ProtoFile.serviceNames (f : ProtoFile) : List String := f.services.map fun s => qualify f.package s.name

namespace Compiled

/-- The paths of the units. -/
def files (c : Compiled) : List String := Assembly.paths c.units

def unit? (c : Compiled) (package : String) : Option PackageUnit := c.units.find? (·.package == package)

def status? (c : Compiled) (entity : String) : Option Status := c.statuses.get? entity

/-- The entities that failed, with their errors. -/
def errors (c : Compiled) : Table EntityError :=
  c.statuses.filterMap fun (e, s) => match s with
    | .failed x => some (e, x)
    | _ => none

/-- The entities that ask for no message. -/
def skipped (c : Compiled) : List String :=
  c.statuses.filterMap fun (e, s) => match s with
    | .skipped => some e
    | _ => none

/-- The file that holds the message of an entity, or why there is none. -/
def fileOf (c : Compiled) (entity : String) : Except EntityError ProtoFile :=
  match c.status? entity with
  | some (.generated package) => match c.set.file? (pathOf package) with
    | some f => .ok f
    | none => .error (.unresolvedReference entity (pathOf package) .fileNotBuilt)
  | some .skipped => .error (.schemaSkipped entity)
  | some (.failed x) => .error x
  | none => .error (.unresolvedReference entity entity .notDefined)

/-- The full name of an entity's message and the message, or why there is none. -/
def messageOf (c : Compiled) (entity : String) : Except EntityError (String × Message) := do
  let f ← c.fileOf entity
  let fullName := f.package ++ "." ++ entity
  match c.set.message? fullName with
  | some found => return found
  | none => throw (.unresolvedReference entity fullName .messageNotBuilt)

end Compiled

end Protograph
