/-
  Protograph.Compile.TypeMap — the protobuf type of a schema field.

  A value that must be there has a scalar type, one that may be absent the message that
  wraps it. A type named in the schema is taken as it is (`checkOverride`). The names of
  types are relative to the package of the entity.
-/

import Protograph.Text.Words
import Protograph.Schema.Graph
import Protograph.Descriptor.Basic
import Protograph.Fault

namespace Protograph

namespace WellKnown

def timestamp : String := "google.protobuf.Timestamp"
def empty : String := "google.protobuf.Empty"
def value : String := "google.protobuf.Value"
def int32Value : String := "google.protobuf.Int32Value"
def stringValue : String := "google.protobuf.StringValue"

end WellKnown

structure MappedType where
  type : FieldType
  typeName : Option String := none
  repeated : Bool := false
  deriving DecidableEq, Repr

namespace MappedType

def scalar (t : FieldType) : MappedType := { type := t }

def message (name : String) : MappedType := { type := .message, typeName := some name }

def enumeration (name : String) : MappedType := { type := .enumeration, typeName := some name }

def asRepeated (t : MappedType) : MappedType := { t with repeated := true }

def toField (t : MappedType) (name : String) (number : Int) : Field :=
  { name, number, repeated := t.repeated, type := t.type, typeName := t.typeName }

end MappedType

namespace Kind

/-- The scalar type of a value that must be there. -/
def scalar? : Kind → Option FieldType
  | bool => some .bool
  | int | int8 | int16 | int32 => some .int32
  | int64 => some .int64
  | uint | uint8 | uint16 | uint32 => some .uint32
  | uint64 => some .uint64
  | float32 => some .float
  | float64 => some .double
  | string => some .string
  | uuid | bytes => some .bytes
  | time | json | enumeration | other => none

/-- The message of a value that may be absent. -/
def wrapper? : Kind → Option String
  | bool => some "google.protobuf.BoolValue"
  | int | int8 | int16 | int32 => some WellKnown.int32Value
  | int64 => some "google.protobuf.Int64Value"
  | uint | uint8 | uint16 | uint32 => some "google.protobuf.UInt32Value"
  | uint64 => some "google.protobuf.UInt64Value"
  | float32 => some "google.protobuf.FloatValue"
  | float64 => some "google.protobuf.DoubleValue"
  | string => some WellKnown.stringValue
  | uuid | bytes => some "google.protobuf.BytesValue"
  | time => some WellKnown.timestamp
  | json | enumeration | other => none

end Kind

/-- Name of the enumeration nested in the entity's message for a field. -/
def enumTypeName (field : String) : String := Text.upperCamel field

/-- Name of the message that wraps an optional value of a field's enumeration. -/
def enumWrapperName (entity field : String) : String := Text.upperCamel (entity ++ "_" ++ field ++ "_enum_value")

/-- The type of a kind by itself. -/
def mapKind (field : String) (kind : Kind) (optional : Bool) : Except EntityError MappedType :=
  if kind = .time then .ok (.message WellKnown.timestamp)
  else if optional then
    match kind.wrapper? with
    | some name => .ok (.message name)
    | none => .error (.unsupportedType field ("optional " ++ kind.name))
  else
    match kind.scalar? with
    | some t => .ok (.scalar t)
    | none => .error (.unsupportedType field kind.name)

def mapShape : Shape → MappedType
  | .stringList => (MappedType.scalar .string).asRepeated
  | .int32List => (MappedType.scalar .int32).asRepeated
  | .int64List => (MappedType.scalar .int64).asRepeated
  | .uint32List => (MappedType.scalar .uint32).asRepeated
  | .uint64List => (MappedType.scalar .uint64).asRepeated
  | .any => .message WellKnown.value

/-- A type that the schema names: messages and enumerations need a name, scalars have
    none, and groups are not allowed. -/
def checkOverride (element : String) (type : FieldType) (name : Option String) : Except EntityError MappedType :=
  match type, name.filter (· ≠ "") with
  | .group, _ => .error (.misannotated element .groupType)
  | type, some name =>
    if type.isNamed then .ok { type, typeName := some name }
    else .error (.misannotated element (.namedScalar type name))
  | type, none =>
    if type.isNamed then .error (.misannotated element (.unnamedType type)) else .ok (.scalar type)

/-- The type of a field of an entity. -/
def mapField (entity : String) (field : FieldSpec) : Except EntityError MappedType :=
  match field.annotations.field.bind fun a => a.type.map (·, a.typeName) with
  | some (type, name) => checkOverride (entity ++ "." ++ field.name) type name
  | none =>
    match field.kind with
    | .enumeration =>
      if field.optional then .ok (.message (enumWrapperName entity field.name))
      else .ok (.enumeration (enumTypeName field.name))
    | .json => .ok (mapShape (field.json.getD .any))
    | kind => mapKind field.name kind field.optional

end Protograph
