/-
  Protograph.Compile.References — what the messages and services of an entity refer to.

  A type name means a well-known message, a message or enumeration of the entity itself,
  or the message of another entity. Well-known messages and entities of other packages
  have to be imported.
-/

import Protograph.Fault
import Protograph.Descriptor.Basic

namespace Protograph

namespace WellKnown

/-- Each well-known message and the file that defines it. -/
def types : Table String :=
  [("google.protobuf.Timestamp", "google/protobuf/timestamp.proto"),
   ("google.protobuf.Empty", "google/protobuf/empty.proto"),
   ("google.protobuf.DoubleValue", "google/protobuf/wrappers.proto"),
   ("google.protobuf.FloatValue", "google/protobuf/wrappers.proto"),
   ("google.protobuf.Int64Value", "google/protobuf/wrappers.proto"),
   ("google.protobuf.UInt64Value", "google/protobuf/wrappers.proto"),
   ("google.protobuf.Int32Value", "google/protobuf/wrappers.proto"),
   ("google.protobuf.UInt32Value", "google/protobuf/wrappers.proto"),
   ("google.protobuf.BoolValue", "google/protobuf/wrappers.proto"),
   ("google.protobuf.StringValue", "google/protobuf/wrappers.proto"),
   ("google.protobuf.BytesValue", "google/protobuf/wrappers.proto"),
   ("google.protobuf.Struct", "google/protobuf/struct.proto"),
   ("google.protobuf.Value", "google/protobuf/struct.proto"),
   ("google.protobuf.ListValue", "google/protobuf/struct.proto")]

/-- The files of the well-known messages, in the order of the messages. -/
def paths : List String := addAll [] (types.map (·.2))

end WellKnown

/-- The imports of an entity's output and the other entities it refers to, each in the
    order of first use. -/
structure References where
  imports : List String := []
  entities : List String := []
  deriving DecidableEq, Repr

/-- What the names in an entity's output are looked up in. -/
structure NameScope where
  entity : String
  package : String
  /-- The package of every entity that a message is made for. -/
  packages : Table String
  messages : List String
  enums : List String

namespace NameScope

/-- The scope of an entity with the given messages. The enumerations nested in its own
    message also go by their bare names. -/
def ofMessages (entity package : String) (messages : List Message) (packages : Table String) : NameScope :=
  { entity, package, packages
    messages := messages.map (·.name)
    enums := messages.flatMap fun m => m.enums.flatMap fun e =>
      (m.name ++ "." ++ e.name) :: (if m.name = entity then [e.name] else []) }

/-- The package and the name of an entity's message as referred to. -/
def splitName (s : NameScope) (name : String) : String × String := (Text.cutLastDot name).getD (s.package, name)

/-- Records what one type name refers to. `element` is what refers to it. -/
def refer (s : NameScope) (r : References) (element typeName : String) (wantsEnum : Bool) :
    Except EntityError References :=
  let name := Text.withoutLeadingDots typeName
  let unresolved (fault : ReferenceFault) : Except EntityError References :=
    .error (.unresolvedReference element typeName fault)
  if s.enums.contains name then
    if wantsEnum then .ok r else unresolved .enumForMessage
  else if wantsEnum then
    if s.messages.contains name || WellKnown.types.has name then unresolved .messageForEnum
    else unresolved .unknownEnum
  else match WellKnown.types.get? name with
    | some path => .ok { r with imports := addNew r.imports path }
    | none =>
      if s.messages.contains name then .ok r
      else
        let (package, entity) := s.splitName name
        match s.packages.get? entity with
        | some home =>
          if home = package then
            .ok { imports := if package ≠ s.package then addNew r.imports (pathOf package) else r.imports
                  entities := if entity ≠ s.entity then addNew r.entities entity else r.entities }
          else unresolved .unknownType
        | none => unresolved .unknownType

def referField (s : NameScope) (message : String) (r : References) (f : Field) : Except EntityError References :=
  match f.typeName with
  | none => .ok r
  | some typeName => s.refer r (message ++ "." ++ f.name) typeName (f.type = .enumeration)

def referMethod (s : NameScope) (service : String) (r : References) (m : Rpc) : Except EntityError References := do
  let r ← s.refer r (service ++ "." ++ m.name) m.input false
  s.refer r (service ++ "." ++ m.name) m.output false

/-- Everything that some messages and services refer to. -/
def resolve (s : NameScope) (messages : List Message) (services : List Service) : Except EntityError References := do
  let r ← messages.foldlM (fun r m => m.fields.foldlM (s.referField m.name) r) {}
  services.foldlM (fun r v => v.methods.foldlM (s.referMethod v.name) r) r

end NameScope

end Protograph
