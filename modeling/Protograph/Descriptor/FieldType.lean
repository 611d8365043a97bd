/-
  Protograph.Descriptor.FieldType — the eighteen types of a protobuf field, with the
  numbers and names that descriptors give them.
-/

import Protograph.Text.Segments

namespace Protograph

inductive FieldType
  | double
  | float
  | int64
  | uint64
  | int32
  | fixed64
  | fixed32
  | bool
  | string
  | group
  | message
  | bytes
  | uint32
  | enumeration
  | sfixed32
  | sfixed64
  | sint32
  | sint64
  deriving DecidableEq, Repr

namespace FieldType

/-- Every type, in the order of the numbers, which begin with 1. -/
def all : List FieldType :=
  [double, float, int64, uint64, int32, fixed64, fixed32, bool, string, group, message, bytes,
   uint32, enumeration, sfixed32, sfixed64, sint32, sint64]

/-- The number of the type in a descriptor. -/
def number : FieldType → Nat
  | double => 1
  | float => 2
  | int64 => 3
  | uint64 => 4
  | int32 => 5
  | fixed64 => 6
  | fixed32 => 7
  | bool => 8
  | string => 9
  | group => 10
  | message => 11
  | bytes => 12
  | uint32 => 13
  | enumeration => 14
  | sfixed32 => 15
  | sfixed64 => 16
  | sint32 => 17
  | sint64 => 18

def ofNumber? (n : Nat) : Option FieldType := all.find? (·.number == n)

/-- The word for the type in a `.proto` text. -/
def keyword : FieldType → String
  | double => "double"
  | float => "float"
  | int64 => "int64"
  | uint64 => "uint64"
  | int32 => "int32"
  | fixed64 => "fixed64"
  | fixed32 => "fixed32"
  | bool => "bool"
  | string => "string"
  | group => "group"
  | message => "message"
  | bytes => "bytes"
  | uint32 => "uint32"
  | enumeration => "enum"
  | sfixed32 => "sfixed32"
  | sfixed64 => "sfixed64"
  | sint32 => "sint32"
  | sint64 => "sint64"

/-- The name of the type in a descriptor: `TYPE_INT64`. -/
def label (t : FieldType) : String := "TYPE_" ++ Text.asciiUpper t.keyword

/-- Whether a field of the type names a message or an enumeration. -/
def isNamed (t : FieldType) : Bool := t == message || t == enumeration

/-- Reads a type as a descriptor or a `.proto` text spells it, in any case of ASCII
    letters and between blanks. -/
def parse? (text : String) : Option FieldType :=
  let spelled := Text.asciiUpper (Text.trim text)
  let full := if "TYPE_".toList.isPrefixOf spelled.toList then spelled else "TYPE_" ++ spelled
  all.find? (·.label == full)

theorem ofNumber?_number (t : FieldType) : ofNumber? t.number = some t := by cases t <;> rfl

end FieldType

end Protograph
