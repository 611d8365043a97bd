/-
  Protograph.Fault — why an entity, or a whole compilation, comes to nothing.

  A fault of an entity is recorded for that entity and stops no other. A fault of the
  compilation stops it.
-/

import Protograph.Text.Quoted
import Protograph.Descriptor.FieldType

namespace Protograph

open Text (quoted)

/-- What is wrong with the number of a field. -/
inductive NumberFault
  | outOfRange (field : String) (number : Int)
  /-- In the range that protobuf keeps for itself. -/
  | reserved (field : String) (number : Int)
  /-- Number 1, on a field that is not the identifier. -/
  | identifierOnly (field : String)
  | taken (number : Int)
  deriving DecidableEq, Repr

/-- The largest field number. -/
def maxFieldNumber : Int := 536870911

def NumberFault.message : NumberFault → String
  | outOfRange field number =>
    "field " ++ quoted field ++ " number " ++ toString number ++ " is outside 1..=" ++ toString maxFieldNumber
  | reserved field number => "field " ++ quoted field ++ " number " ++ toString number ++ " is reserved by protobuf"
  | identifierOnly field => "field " ++ quoted field ++ " has number 1 which is reserved for the identifier"
  | taken number => "field " ++ toString number ++ " already defined"

/-- Why a reference leads nowhere. -/
inductive ReferenceFault
  | notDefined
  | notGenerated
  | failed
  | enumForMessage
  | messageForEnum
  | unknownEnum
  | unknownType
  | messageNotBuilt
  | fileNotBuilt
  deriving DecidableEq, Repr

def ReferenceFault.message : ReferenceFault → String
  | notDefined => "entity is not defined"
  | notGenerated => "message is not generated"
  | failed => "referenced entity failed to compile"
  | enumForMessage => "enum used where a message is expected"
  | messageForEnum => "message used where an enum is expected"
  | unknownEnum => "enum is not defined by the entity"
  | unknownType => "type is neither well-known nor a generated entity"
  | messageNotBuilt => "message was not built"
  | fileNotBuilt => "file was not built"

/-- What is missing from an annotation, or does not fit what it stands on. -/
inductive AnnotationFault
  | skippedIdentifier
  | missingField
  | missingEdgeField
  | missingEnum
  | groupType
  | unnamedType (type : FieldType)
  | namedScalar (type : FieldType) (name : String)
  | valueWithoutNumber (value : String)
  | numberWithoutValue (value : String)
  | sameIdentifier (first second identifier : String)
  | sameNumber (first second : String) (number : Int)
  | defaultNotValue (value : String)
  | defaultNotZero (value : String)
  | zeroNotDefault (value : String)
  deriving DecidableEq, Repr

def AnnotationFault.message : AnnotationFault → String
  | skippedIdentifier => "the identifier cannot be skipped"
  | missingField => "field has no field annotation"
  | missingEdgeField => "edge has no field annotation"
  | missingEnum => "enum field has no enum annotation"
  | groupType => "group fields are not allowed in proto3"
  | unnamedType type => "type override " ++ type.label ++ " requires a type_name"
  | namedScalar type name => "scalar type override " ++ type.label ++ " cannot name a type (" ++ name ++ ")"
  | valueWithoutNumber value => "enum value " ++ quoted value ++ " is missing an option number"
  | numberWithoutValue value => "enum option " ++ quoted value ++ " is not a value of the field"
  | sameIdentifier first second identifier =>
    "enum values " ++ quoted first ++ " and " ++ quoted second ++ " both normalize to " ++ identifier
  | sameNumber first second number =>
    "enum values " ++ quoted first ++ " and " ++ quoted second ++ " share number " ++ toString number
  | defaultNotValue value => "default " ++ quoted value ++ " is not an enum value"
  | defaultNotZero value => "default enum value " ++ quoted value ++ " must be number 0"
  | zeroNotDefault value => "enum value " ++ quoted value ++ " uses number 0, reserved for the unspecified value"

inductive EntityError
  /-- The entity asks for no message; no failure. -/
  | schemaSkipped (entity : String)
  | unsupportedType (field type : String)
  | numberConflict (message : String) (fault : NumberFault)
  | unresolvedReference (source target : String) (fault : ReferenceFault)
  | filterModeMismatch (entity field type : String)
  | identifierTypeUnsupported (entity type : String)
  | misannotated (element : String) (fault : AnnotationFault)
  | nameConflict (scope name : String)
  deriving DecidableEq, Repr

namespace EntityError

def isSkipped : EntityError → Bool
  | schemaSkipped _ => true
  | _ => false

/-- The kind of the error, without what it is about. -/
def label : EntityError → String
  | schemaSkipped _ => "SchemaSkipped"
  | unsupportedType _ _ => "UnsupportedType"
  | numberConflict _ _ => "NumberConflict"
  | unresolvedReference _ _ _ => "UnresolvedReference"
  | filterModeMismatch _ _ _ => "FilterModeMismatch"
  | identifierTypeUnsupported _ _ => "IdentifierTypeUnsupported"
  | misannotated _ _ => "InvalidAnnotation"
  | nameConflict _ _ => "NameConflict"

def message : EntityError → String
  | schemaSkipped entity => "schema " ++ quoted entity ++ " is not annotated with message generation"
  | unsupportedType field type => "field " ++ quoted field ++ ": unsupported field type " ++ type
  | numberConflict message fault => "message " ++ quoted message ++ ": " ++ fault.message
  | unresolvedReference source target fault =>
    quoted source ++ " references " ++ quoted target ++ ": " ++ fault.message
  | filterModeMismatch entity field type =>
    "contains filter mode is only supported for string fields, schema " ++ quoted entity ++ " field " ++
      quoted field ++ " has type " ++ type
  | identifierTypeUnsupported entity type =>
    "list method does not support schema " ++ quoted entity ++ " id type " ++ type
  | misannotated element fault => quoted element ++ ": " ++ fault.message
  | nameConflict scope name => "name " ++ quoted name ++ " is already defined in " ++ quoted scope

end EntityError

/-- What keeps a set of files from being a pool of descriptors. -/
inductive PoolFault
  | fileAgain (path : String)
  /-- A name is taken, in a file that is named unless it is the same one. -/
  | nameAgain (name : String) (file : Option String)
  | sameCamelCase (first second : String)
  | emptyEnum
  | firstValueNotZero
  | badNumber (number : Int)
  /-- A field that must name a type does not; the path leads from the file to the name. -/
  | missingTypeName (path : List Nat)
  | sameFieldNumber (number : Int)
  | sameEnumNumber (number : Int)
  deriving DecidableEq, Repr

namespace PoolFault

def inTicks (s : String) : String := "'" ++ s ++ "'"

def message : PoolFault → String
  | fileAgain path => "a different file named " ++ inTicks path ++ " has already been added"
  | nameAgain name none => "name " ++ inTicks name ++ " is defined twice"
  | nameAgain name (some file) => "name " ++ inTicks name ++ " is already defined in file " ++ inTicks file
  | sameCamelCase first second =>
    "camel-case name of field " ++ inTicks first ++ " conflicts with field " ++ inTicks second
  | emptyEnum => "enums must have at least one value"
  | firstValueNotZero => "the first value for proto3 enums must be 0"
  | badNumber number => "invalid field number " ++ inTicks (toString number)
  | missingTypeName path => "missing required field at [" ++ String.intercalate ", " (path.map toString) ++ "]"
  | sameFieldNumber number => "field number " ++ inTicks (toString number) ++ " is already used"
  | sameEnumNumber number => "enum number " ++ inTicks (toString number) ++ " has already been used"

end PoolFault

/-- What keeps the files of a compilation from fitting together. -/
inductive AssemblyFault
  | unknownImport (path : String)
  /-- Each file of the chain imports the next, and the last one is in it before. -/
  | importCycle (chain : List String)
  | alreadyDefined (name file : String)
  | undefined (name scope : String)
  | wrongKind (name scope : String) (wantsEnum : Bool)
  | notImported (name file : String)
  | pool (fault : PoolFault)
  deriving DecidableEq, Repr

def AssemblyFault.message : AssemblyFault → String
  | unknownImport path => "imports unknown file " ++ quoted path
  | importCycle chain => "import cycle: " ++ String.intercalate " -> " chain
  | alreadyDefined name file => name ++ " is already defined in " ++ file
  | undefined name scope => quoted name ++ " referenced from " ++ scope ++ " is not defined"
  | wrongKind name scope wantsEnum =>
    quoted name ++ " referenced from " ++ scope ++ " is not a" ++ (if wantsEnum then "n enum" else " message")
  | notImported name file => name ++ " is defined in " ++ file ++ " which is not imported"
  | pool fault => fault.message

inductive CompileError
  | duplicateEntity (name : String)
  | assembly (file : String) (fault : AssemblyFault)
  deriving DecidableEq, Repr

namespace CompileError

def label : CompileError → String
  | duplicateEntity _ => "DuplicateEntity"
  | assembly _ _ => "AssemblyFailure"

def message : CompileError → String
  | duplicateEntity name => "entity " ++ quoted name ++ " is defined more than once"
  | assembly file fault => "failed assembling " ++ quoted file ++ ": " ++ fault.message

end CompileError

end Protograph
