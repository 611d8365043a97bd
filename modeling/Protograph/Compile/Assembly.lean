/-
  Protograph.Compile.Assembly — file units put together into one descriptor set.

  The set begins with the well-known files, if it has any file, and the units follow with
  imports ahead of importers. In it type names are full names, with a dot in front: each
  is looked up from where it is written, must be of the kind wanted, and must be defined
  in the file itself or in one that it imports.
-/

import Protograph.Compile.References
import Protograph.Descriptor.WellKnown
import Protograph.Descriptor.Symbol
import Protograph.Descriptor.ImportOrder
import Protograph.Descriptor.Pool

namespace Protograph

/-- A canonical descriptor set, in two parts: the well-known files and those of the units. -/
structure DescriptorSet where
  wellKnown : List ProtoFile
  files : List ProtoFile
  deriving Repr, BEq

def DescriptorSet.all (s : DescriptorSet) : List ProtoFile := s.wellKnown ++ s.files

def DescriptorSet.file? (s : DescriptorSet) (path : String) : Option ProtoFile := s.all.find? (·.path == path)

namespace Assembly

abbrev Result := Except CompileError

/-- Looks up a name that a file writes inside a scope. -/
def lookUp (symbols : Symbols) (file : ProtoFile) (scope name : String) (wantsEnum : Bool) : Result String :=
  let failure (fault : AssemblyFault) : Result String := .error (.assembly file.path fault)
  match symbols.resolve scope name with
  | none => failure (.undefined name scope)
  | some s =>
    if s.kind ≠ (if wantsEnum then .enumeration else .message) then failure (.wrongKind name scope wantsEnum)
    else if s.file ∈ file.path :: file.imports then .ok ("." ++ s.name)
    else failure (.notImported s.name s.file)

def canonicalField (symbols : Symbols) (file : ProtoFile) (scope : String) (f : Field) : Result Field :=
  match f.typeName with
  | none => .ok f
  | some name => do
    let full ← lookUp symbols file scope name (f.type = .enumeration)
    return { f with typeName := some full }

mutual

/-- The message with full type names. -/
def canonicalMessage (symbols : Symbols) (file : ProtoFile) (scope : String) : Message → Result Message
  | ⟨name, fields, enums, nested⟩ => do
    let fields ← fields.mapM (canonicalField symbols file (qualify scope name))
    let nested ← canonicalMessages symbols file (qualify scope name) nested
    return ⟨name, fields, enums, nested⟩

def canonicalMessages (symbols : Symbols) (file : ProtoFile) (scope : String) : List Message → Result (List Message)
  | [] => .ok []
  | m :: ms => do
    let m ← canonicalMessage symbols file scope m
    let ms ← canonicalMessages symbols file scope ms
    return m :: ms

end

def canonicalMethod (symbols : Symbols) (file : ProtoFile) (m : Rpc) : Result Rpc := do
  let input ← lookUp symbols file file.package m.input false
  let output ← lookUp symbols file file.package m.output false
  return { m with input, output }

def canonicalService (symbols : Symbols) (file : ProtoFile) (s : Service) : Result Service := do
  let methods ← s.methods.mapM (canonicalMethod symbols file)
  return { s with methods }

/-- The file with full type names. -/
def canonicalFile (symbols : Symbols) (file : ProtoFile) : Result ProtoFile := do
  let messages ← canonicalMessages symbols file file.package file.messages
  let services ← file.services.mapM (canonicalService symbols file)
  return { file with messages, services }

/-- The paths of some units, each once. -/
def paths (units : List PackageUnit) : List String := addAll [] (units.map (·.path))

/-- Refuses a unit that imports what is neither a well-known file nor a unit. -/
def checkImports (units : List PackageUnit) (u : PackageUnit) : Result PUnit :=
  match u.imports.find? fun i => !(WellKnown.paths.contains i || units.any (·.path == i)) with
  | some i => .error (.assembly u.path (.unknownImport i))
  | none => .ok ⟨⟩

/-- The paths of the units, imports ahead of importers. -/
def importOrder (units : List PackageUnit) : Result (List String) :=
  match ImportOrder.order units with
  | .ok paths => .ok paths
  | .error chain => .error (.assembly (chain.getLast?.getD "") (.importCycle chain))

/-- Refuses a set that is no pool of descriptors. -/
def checkPool (set : DescriptorSet) : Result PUnit :=
  match Pool.check set.all with
  | .ok _ => .ok ⟨⟩
  | .error fault => .error (.assembly "descriptor set" (.pool fault))

/-- The descriptor set of some units. -/
def assemble (units : List PackageUnit) : Result DescriptorSet := do
  units.forM (checkImports units)
  let order ← importOrder units
  let wellKnown := if units.isEmpty then [] else WellKnown.files
  let relative := order.filterMap fun path => (units.find? (·.path == path)).map (·.toFile)
  let symbols ← Symbols.ofFiles (wellKnown ++ relative)
  let files ← relative.mapM (canonicalFile symbols)
  let set : DescriptorSet := ⟨wellKnown, files⟩
  checkPool set
  return set

end Assembly

export Assembly (assemble)

end Protograph
