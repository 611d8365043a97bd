/-
  Protograph.Schema.Mask — sets of filter modes and of service methods, as bits.

  A document writes such a set as a number, as one string of names between bars, or as a
  list of names (`Written`); `Written.bits` reads all three against one `Vocabulary`. A
  service with no method written means every method; a filter with no mode has none.
-/

import Protograph.Text.Segments

namespace Protograph

/-- The names a document may use for the bits of a set, and which bits there are. -/
structure Vocabulary where
  /-- What messages call the set. -/
  what : String
  valid : UInt8
  names : List (String × UInt8)
  deriving Repr

/-- The three ways to write a set down. -/
inductive Written
  | number (bits : UInt8)
  | joined (text : String)
  | names (names : List String)
  deriving DecidableEq, Repr

/-- Why what is written is no set. -/
inductive MaskFault
  | badBits (what : String) (bits : UInt8)
  | badName (what : String) (name : String)
  deriving DecidableEq, Repr

namespace Vocabulary

/-- The bit of a name, in any case of ASCII letters and between blanks. -/
def bit? (v : Vocabulary) (name : String) : Option UInt8 := v.names.lookup (Text.asciiLower (Text.trim name))

/-- The names of a joined text: trimmed, and only those that are not blank. -/
def namesIn (text : String) : List String :=
  ((Text.split '|' text).map Text.trim).filter (· != "")

/-- The union of the bits of some names; the first unknown name is at fault. -/
def bitsOf (v : Vocabulary) : List String → Except MaskFault UInt8
  | [] => .ok 0
  | n :: ns => match v.bit? n with
    | none => .error (.badName v.what n)
    | some b => (v.bitsOf ns).map (b ||| ·)

def read (v : Vocabulary) : Written → Except MaskFault UInt8
  | .number bits => if bits &&& ~~~v.valid = 0 then .ok bits else .error (.badBits v.what bits)
  | .joined text => v.bitsOf (namesIn text)
  | .names ns => v.bitsOf ns

end Vocabulary

/-- Which filter fields a listing offers for a field. -/
structure FilterModes where
  bits : UInt8
  deriving DecidableEq, Repr

namespace FilterModes

def eq : FilterModes := ⟨1⟩
def contains : FilterModes := ⟨2⟩
def member : FilterModes := ⟨4⟩

def vocabulary : Vocabulary :=
  { what := "filter mode", valid := 7, names := [("eq", 1), ("contains", 2), ("in", 4)] }

/-- Whether the two sets have a mode in common. -/
def has (a b : FilterModes) : Bool := a.bits &&& b.bits != 0

def union (a b : FilterModes) : FilterModes := ⟨a.bits ||| b.bits⟩

def ofWritten (w : Written) : Except MaskFault FilterModes := (vocabulary.read w).map (⟨·⟩)

/-- The set as `FilterMode(EQ|IN)`. -/
def display (m : FilterModes) : String :=
  let set := [(eq, "EQ"), (contains, "CONTAINS"), (member, "IN")].filter fun e => m.has e.1
  "FilterMode(" ++ String.intercalate "|" (set.map (·.2)) ++ ")"

end FilterModes

/-- One method of a service. -/
inductive Method
  | create
  | get
  | update
  | delete
  | list
  deriving DecidableEq, Repr

namespace Method

/-- Every method, in the order a service declares them. -/
def all : List Method := [create, get, update, delete, list]

def name : Method → String
  | create => "Create"
  | get => "Get"
  | update => "Update"
  | delete => "Delete"
  | list => "List"

def bit : Method → UInt8
  | create => 1
  | get => 2
  | update => 4
  | delete => 8
  | list => 16

end Method

/-- Which methods a service offers. -/
structure Methods where
  bits : UInt8
  deriving DecidableEq, Repr

namespace Methods

def all : Methods := ⟨31⟩

def vocabulary : Vocabulary :=
  { what := "service method", valid := 31,
    names := [("create", 1), ("get", 2), ("update", 4), ("delete", 8), ("list", 16), ("all", 31)] }

/-- Whether the two sets have a method in common. -/
def has (a b : Methods) : Bool := a.bits &&& b.bits != 0

def union (a b : Methods) : Methods := ⟨a.bits ||| b.bits⟩

/-- The methods of the set, in the order a service declares them. -/
def toList (m : Methods) : List Method := Method.all.filter fun x => m.has ⟨x.bit⟩

/-- A set with no method means every method. -/
def ofWritten (w : Written) : Except MaskFault Methods :=
  (vocabulary.read w).map fun bits => if bits = 0 then all else ⟨bits⟩

/-- The set as `Methods(Get|List)`. -/
def display (m : Methods) : String :=
  "Methods(" ++ String.intercalate "|" (m.toList.map Method.name) ++ ")"

end Methods

end Protograph
