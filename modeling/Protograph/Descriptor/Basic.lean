/-
  Protograph.Descriptor.Basic — descriptors of protobuf messages, enumerations, services
  and files, and the file unit that holds the output of one package.

  Inside a unit type names are relative, the way a `.proto` text writes them. A unit's
  path follows from its package (`pathOf`).
-/

import Protograph.Ordered
import Protograph.Descriptor.FieldType

namespace Protograph

structure Field where
  name : String
  number : Int
  repeated : Bool := false
  type : FieldType
  typeName : Option String := none
  deriving DecidableEq, Repr

structure EnumValue where
  name : String
  number : Int
  deriving DecidableEq, Repr

structure Enum where
  name : String
  values : List EnumValue := []
  deriving DecidableEq, Repr

/-- A message with its fields, nested enumerations and nested messages. -/
structure Message where
  name : String
  fields : List Field := []
  enums : List Enum := []
  nested : List Message := []
  deriving Repr, BEq

/-- One method of a service; `pure` methods have no side effects. -/
structure Rpc where
  name : String
  input : String
  output : String
  pure : Bool := false
  deriving DecidableEq, Repr

structure Service where
  name : String
  methods : List Rpc := []
  deriving DecidableEq, Repr

/-- A proto3 file. -/
structure ProtoFile where
  path : String
  package : String
  imports : List String := []
  messages : List Message := []
  services : List Service := []
  enums : List Enum := []
  /-- The oneofs of the messages, named from the package on. Only well-known files have any. -/
  oneofs : List String := []
  deriving Repr, BEq

/-- Path of the file of a package: `a.b.c` is in `a/b/c/c.proto`. -/
def pathOf (package : String) : String :=
  let last := ((Text.split '.' package).getLast?).getD package
  String.intercalate "/" (Text.split '.' package) ++ "/" ++ last ++ ".proto"

/-- All output of one package. -/
structure PackageUnit where
  package : String
  messages : List Message := []
  services : List Service := []
  /-- Paths, in the order of first use. -/
  imports : List String := []
  /-- The entities whose output this is. -/
  entities : List String := []
  deriving Repr, BEq

namespace PackageUnit

def path (u : PackageUnit) : String := pathOf u.package

def toFile (u : PackageUnit) : ProtoFile :=
  { path := u.path, package := u.package, imports := u.imports, messages := u.messages, services := u.services }

def hasMessage (u : PackageUnit) (name : String) : Bool := u.messages.any (·.name == name)

def hasService (u : PackageUnit) (name : String) : Bool := u.services.any (·.name == name)

end PackageUnit

/-- A name inside a scope, with no dot when the scope is the root. -/
def qualify (scope name : String) : String := if scope = "" then name else scope ++ "." ++ name

end Protograph
