/-
  Protograph.Compile.Compilation — the compilation of a graph.

  Every entity that asks for a message is built by itself. Then names are claimed in the
  order of the graph (`claimNames`), and failure spreads to whatever refers to a failed
  entity until nothing changes (`propagate`). What survives is grouped into one unit for
  each package, and the units are assembled.
-/

import Protograph.Compile.EntityMessage
import Protograph.Compile.EntityService
import Protograph.Compile.References
import Protograph.Compile.Assembly

namespace Protograph

/-- The package of entities that name none, unless stated otherwise. -/
def standardPackage : String := "entpb"

/-- What one entity adds to the unit of its package. -/
structure EntityOutput where
  package : String
  messages : List Message
  services : List Service
  references : References

/-- The names that the output declares in the package, messages first. -/
def EntityOutput.names (o : EntityOutput) : List String := o.messages.map (·.name) ++ o.services.map (·.name)

/-- The output of every entity that asks for a message, or why it has none. -/
abbrev Outputs := Table (Except EntityError EntityOutput)

inductive Status
  | generated (package : String)
  | skipped
  | failed (error : EntityError)

/-- A graph compiled. -/
structure Compiled where
  units : List PackageUnit
  set : DescriptorSet
  /-- What came of every entity, in the order of the graph. -/
  statuses : Table Status

namespace Compilation

/-- The package of every entity that asks for a message. -/
def packagesOf (graph : Graph) (standard : String) : Table String :=
  graph.entities.filterMap fun e => (e.package? standard).map (e.name, ·)

/-- The service of an entity, if it asks for one, with the messages it brings along. -/
def serviceOf (e : Entity) : Except EntityError (List Service × List Message) :=
  match e.annotations.service.filter (·.generate) with
  | none => .ok ([], [])
  | some options => do
    let out ← buildService e options
    return ([out.service], out.messages)

/-- The output of one entity by itself. -/
def buildEntity (e : Entity) (package : String) (graph : Graph) (packages : Table String) :
    Except EntityError EntityOutput := do
  let messages ← buildMessages e package graph packages
  let (services, more) ← serviceOf e
  let messages := messages ++ more
  let references ← (NameScope.ofMessages e.name package messages packages).resolve messages services
  return { package, messages, services, references }

def buildAll (graph : Graph) (packages : Table String) : Outputs :=
  graph.entities.filterMap fun e =>
    (packages.get? e.name).map fun package => (e.name, buildEntity e package graph packages)

/-! ## Names -/

/-- The first name that is taken, or that stands in the list before. -/
def firstTaken (taken : List String) : List String → Option String
  | [] => none
  | n :: ns => if n ∈ taken then some n else firstTaken (n :: taken) ns

/-- Claims the names of outputs; `claimed` has the names taken, with their packages. -/
def claimFrom (claimed : List (String × String)) : Outputs → Outputs
  | [] => []
  | (e, .error x) :: rest => (e, .error x) :: claimFrom claimed rest
  | (e, .ok o) :: rest =>
    let taken := (claimed.filter (·.1 = o.package)).map (·.2)
    match firstTaken taken o.names with
    | some name => (e, .error (.nameConflict o.package name)) :: claimFrom claimed rest
    | none => (e, .ok o) :: claimFrom (claimed ++ o.names.map (o.package, ·)) rest

/-- Fails every entity one of whose names is taken in its package. -/
def claimNames (outputs : Outputs) : Outputs := claimFrom [] outputs

/-! ## Failure -/

def failedNames (outputs : Outputs) : List String :=
  outputs.filterMap fun (e, r) => match r with
    | .error _ => some e
    | .ok _ => none

/-- The output, unless it refers to a failed entity. -/
def spreadTo (failed : List String) (name : String) : Except EntityError EntityOutput → Except EntityError EntityOutput
  | .error x => .error x
  | .ok o => match o.references.entities.find? fun t => failed.contains t with
    | some target => .error (.unresolvedReference name target .failed)
    | none => .ok o

/-- One round: fails whatever refers to an entity that had failed before it. -/
def spread (outputs : Outputs) : Outputs :=
  outputs.map fun (e, r) => (e, spreadTo (failedNames outputs) e r)

/-- Rounds until one changes nothing. -/
def spreadFor : Nat → Outputs → Outputs
  | 0, outputs => outputs
  | n + 1, outputs =>
    let next := spread outputs
    if failedNames next = failedNames outputs then outputs else spreadFor n next

/-- Fails every entity that leads to a failed one through references. Each round but the
    last fails another entity, so there are no more rounds than entities. -/
def propagate (outputs : Outputs) : Outputs := spreadFor outputs.length outputs

/-! ## Units -/

/-- Adds the output of an entity to the unit of its package. -/
def addOutput (units : List PackageUnit) (name : String) (o : EntityOutput) : List PackageUnit :=
  let extend (u : PackageUnit) : PackageUnit :=
    { u with
      messages := u.messages ++ o.messages
      services := u.services ++ o.services
      imports := addAll u.imports o.references.imports
      entities := u.entities ++ [name] }
  if units.any (·.package = o.package) then units.map fun u => if u.package = o.package then extend u else u
  else units ++ [extend { package := o.package }]

/-- One unit for each package of the survivors, in the order in which they first come. -/
def group (outputs : Outputs) : List PackageUnit :=
  outputs.foldl
    (fun units (name, r) => match r with
      | .ok o => addOutput units name o
      | .error _ => units)
    []

def statusOf (outputs : Outputs) (e : Entity) : Status :=
  match outputs.get? e.name with
  | none => .skipped
  | some (.error x) => .failed x
  | some (.ok o) => .generated o.package

/-- The output of every entity after names are claimed and failure has spread. -/
def settled (graph : Graph) (standard : String) : Outputs :=
  propagate (claimNames (buildAll graph (packagesOf graph standard)))

end Compilation

/-- Compiles a graph. `standard` is the package of entities that name none. -/
def compile (graph : Graph) (standard : String) : Except CompileError Compiled := do
  let outputs := Compilation.settled graph standard
  let units := Compilation.group outputs
  let set ← assemble units
  return { units, set, statuses := graph.entities.map fun e => (e.name, Compilation.statusOf outputs e) }

end Protograph
