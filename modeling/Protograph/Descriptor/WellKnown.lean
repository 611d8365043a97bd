/-
  Protograph.Descriptor.WellKnown — the files of the well-known types, which belong to
  every descriptor set that has any file.
-/

import Protograph.Descriptor.Basic

namespace Protograph.WellKnown

/-- A message with one field that holds a scalar. -/
def box (name : String) (type : FieldType) : Message := { name, fields := [{ name := "value", number := 1, type }] }

def timestampFile : ProtoFile :=
  { path := "google/protobuf/timestamp.proto"
    package := "google.protobuf"
    messages :=
      [{ name := "Timestamp"
         fields := [{ name := "seconds", number := 1, type := .int64 }, { name := "nanos", number := 2, type := .int32 }] }] }

def emptyFile : ProtoFile :=
  { path := "google/protobuf/empty.proto", package := "google.protobuf", messages := [{ name := "Empty" }] }

def wrappersFile : ProtoFile :=
  { path := "google/protobuf/wrappers.proto"
    package := "google.protobuf"
    messages :=
      [box "DoubleValue" .double, box "FloatValue" .float, box "Int64Value" .int64, box "UInt64Value" .uint64,
       box "Int32Value" .int32, box "UInt32Value" .uint32, box "BoolValue" .bool, box "StringValue" .string,
       box "BytesValue" .bytes] }

def structFile : ProtoFile :=
  let named (name : String) (number : Int) (type : FieldType) (typeName : String) (repeated : Bool) : Field :=
    { name, number, repeated, type, typeName := some typeName }
  { path := "google/protobuf/struct.proto"
    package := "google.protobuf"
    messages :=
      [{ name := "Struct"
         fields := [named "fields" 1 .message ".google.protobuf.Struct.FieldsEntry" true]
         nested :=
           [{ name := "FieldsEntry"
              fields :=
                [{ name := "key", number := 1, type := .string },
                 named "value" 2 .message ".google.protobuf.Value" false] }] },
       { name := "Value"
         fields :=
           [named "null_value" 1 .enumeration ".google.protobuf.NullValue" false,
            { name := "number_value", number := 2, type := .double },
            { name := "string_value", number := 3, type := .string },
            { name := "bool_value", number := 4, type := .bool },
            named "struct_value" 5 .message ".google.protobuf.Struct" false,
            named "list_value" 6 .message ".google.protobuf.ListValue" false] },
       { name := "ListValue", fields := [named "values" 1 .message ".google.protobuf.Value" true] }]
    enums := [{ name := "NullValue", values := [⟨"NULL_VALUE", 0⟩] }]
    oneofs := ["Value.kind"] }

/-- The well-known files in the order in which a set begins with them. -/
def files : List ProtoFile := [timestampFile, emptyFile, wrappersFile, structFile]

end Protograph.WellKnown
