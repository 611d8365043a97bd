/-
  Protograph.Schema.Kind — what a field of an entity holds: a primitive, a time, an
  enumeration, a JSON value of some shape, or something with no wire form (`other`).
-/

namespace Protograph

inductive Kind
  | bool
  | int
  | int8
  | int16
  | int32
  | int64
  | uint
  | uint8
  | uint16
  | uint32
  | uint64
  | float32
  | float64
  | string
  | uuid
  | bytes
  | time
  | json
  | enumeration
  | other
  deriving DecidableEq, Repr

namespace Kind

/-- Every kind, in the order in which messages list them. -/
def all : List Kind :=
  [bool, int, int8, int16, int32, int64, uint, uint8, uint16, uint32, uint64, float32, float64,
   string, uuid, bytes, time, json, enumeration, other]

/-- The kind's name in schema documents. -/
def name : Kind → String
  | bool => "bool"
  | int => "int"
  | int8 => "int8"
  | int16 => "int16"
  | int32 => "int32"
  | int64 => "int64"
  | uint => "uint"
  | uint8 => "uint8"
  | uint16 => "uint16"
  | uint32 => "uint32"
  | uint64 => "uint64"
  | float32 => "float32"
  | float64 => "float64"
  | string => "string"
  | uuid => "uuid"
  | bytes => "bytes"
  | time => "time"
  | json => "json"
  | enumeration => "enum"
  | other => "other"

/-- A signed or unsigned integer of any width. -/
def isInteger : Kind → Bool
  | int | int8 | int16 | int32 | int64 | uint | uint8 | uint16 | uint32 | uint64 => true
  | _ => false

/-- Whether values of the kind can identify the rows of a paged listing. -/
def identifiesRows (k : Kind) : Bool := k.isInteger || k == string || k == uuid

end Kind

/-- What a JSON field holds: a list of one scalar type, or anything. -/
inductive Shape
  | stringList
  | int32List
  | int64List
  | uint32List
  | uint64List
  | any
  deriving DecidableEq, Repr

namespace Shape

def all : List Shape := [stringList, int32List, int64List, uint32List, uint64List, any]

/-- The shape's name in schema documents. -/
def name : Shape → String
  | stringList => "string_list"
  | int32List => "int32_list"
  | int64List => "int64_list"
  | uint32List => "uint32_list"
  | uint64List => "uint64_list"
  | any => "any"

end Shape

end Protograph
