/-
  Protograph.Compile.EntityMessage — the message of an entity: its identifier, its fields
  and its edges, with the enumerations of the fields nested in it and one wrapper message
  beside it for each.

  Names of values of an enumeration are names of the message around it.
-/

import Protograph.Compile.Enumeration

namespace Protograph

/-- The numbers that protobuf keeps for itself. -/
def isReservedNumber (n : Int) : Bool := 19000 ≤ n && n ≤ 19999

/-- The number given to an identifier that states none. -/
def identifierNumber : Int := 1

/-- The number of a field, if a field of the message may have it. -/
def checkNumber (message field : String) (number : Int) (isIdentifier : Bool) : Except EntityError Int :=
  if !(1 ≤ number && number ≤ maxFieldNumber) then .error (.numberConflict message (.outOfRange field number))
  else if isReservedNumber number then .error (.numberConflict message (.reserved field number))
  else if number = 1 && !isIdentifier then .error (.numberConflict message (.identifierOnly field))
  else .ok number

/-- Refuses fields that share a number or a name with one of those seen. -/
def checkDistinct (message : String) (seen : List Field) : List Field → Except EntityError PUnit
  | [] => .ok ⟨⟩
  | f :: fs =>
    if seen.any (·.number = f.number) then .error (.numberConflict message (.taken f.number))
    else if seen.any (·.name = f.name) then .error (.nameConflict message f.name)
    else checkDistinct message (f :: seen) fs

/-- Refuses a message with two fields of one number or one name. -/
def Message.checkFields (m : Message) : Except EntityError PUnit := checkDistinct m.name [] m.fields

/-- The name of an entity's message as written in some package. -/
def qualifiedTypeName (package target targetPackage : String) : String :=
  if package = targetPackage then target else targetPackage ++ "." ++ target

/-- The field that an edge of an entity becomes. `packages` has the package of every
    entity that a message is made for. -/
def resolveEdge (entity package : String) (edge : EdgeSpec) (graph : Graph) (packages : Table String) :
    Except EntityError Field :=
  let source := entity ++ "." ++ edge.name
  match edge.annotations.field with
  | none => .error (.misannotated source .missingEdgeField)
  | some options => do
    let number ← checkNumber entity edge.name options.number false
    if (graph.entity? edge.target).isNone then
      .error (.unresolvedReference source edge.target .notDefined)
    else match packages.get? edge.target with
      | none => .error (.unresolvedReference source edge.target .notGenerated)
      | some targetPackage =>
        let t := MappedType.message (qualifiedTypeName package edge.target targetPackage)
        .ok ((if edge.unique then t else t.asRepeated).toField edge.name number)

/-- A message under way. -/
structure MessageDraft where
  fields : List Field := []
  enums : List Enum := []
  wrappers : List Message := []

namespace MessageDraft

def valueNames (d : MessageDraft) : List String := d.enums.flatMap fun e => e.values.map (·.name)

/-- Nests an enumeration whose name and whose values' names are new. -/
def nest (d : MessageDraft) (entity : String) (e : Enum) : Except EntityError MessageDraft :=
  if d.enums.any (·.name = e.name) then .error (.nameConflict entity e.name)
  else match e.values.find? fun v => d.valueNames.contains v.name with
    | some v => .error (.nameConflict entity v.name)
    | none => .ok { d with enums := d.enums ++ [e] }

/-- Adds a field of the entity under a number. -/
def addField (d : MessageDraft) (entity : String) (field : FieldSpec) (number : Int) : Except EntityError MessageDraft := do
  let t ← mapField entity field
  let d ←
    if field.kind = .enumeration then do
      let e ← Enumeration.build entity field
      let d ← d.nest entity e
      pure { d with wrappers := d.wrappers ++ [Enumeration.wrapper entity field] }
    else pure d
  return { d with fields := d.fields ++ [t.toField field.name number] }

/-- Adds a field that is not the identifier, under the number it states. -/
def addDeclared (entity : String) (d : MessageDraft) (field : FieldSpec) : Except EntityError MessageDraft :=
  match field.annotations.field with
  | none => .error (.misannotated (entity ++ "." ++ field.name) .missingField)
  | some options => do
    let number ← checkNumber entity field.name options.number false
    d.addField entity field number

end MessageDraft

/-- The number of an entity's identifier. -/
def Entity.idNumber (e : Entity) : Except EntityError Int :=
  match e.id.annotations.field with
  | some options => checkNumber e.name e.id.name options.number true
  | none => .ok identifierNumber

/-- The message of an entity and, after it, the wrappers of its enumerations. -/
def buildMessages (e : Entity) (package : String) (graph : Graph) (packages : Table String) :
    Except EntityError (List Message) := do
  if e.id.isSkipped then .error (.misannotated (e.name ++ "." ++ e.id.name) .skippedIdentifier)
  else
    let number ← e.idNumber
    let draft ← MessageDraft.addField {} e.name e.id number
    let draft ← e.keptFields.foldlM (MessageDraft.addDeclared e.name) draft
    let edges ← e.keptEdges.mapM fun x => resolveEdge e.name package x graph packages
    let primary : Message := { name := e.name, fields := draft.fields ++ edges, enums := draft.enums }
    primary.checkFields
    return primary :: draft.wrappers

end Protograph
