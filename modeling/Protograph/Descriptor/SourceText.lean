/-
  Protograph.Descriptor.SourceText — file units as `.proto` texts.

  Type names stay relative, as in the unit. Only where the first part of a name would be
  taken for a package around the one written in does the name get a dot in front
  (`Namespaces.spell`).
-/

import Protograph.Descriptor.Basic

namespace Protograph

/-- The packages of a compilation and all packages around them. -/
abbrev Namespaces := List String

namespace Namespaces

/-- The names that the segments of a dotted name make up, from the first one on. -/
def prefixes (lead : String) : List String → List String
  | [] => []
  | s :: ss =>
    let name := if lead = "" then s else lead ++ "." ++ s
    name :: prefixes name ss

def ofPackage (package : String) : List String := prefixes "" (Text.split '.' package)

/-- The namespaces of some units, and that of the well-known types. -/
def ofUnits (units : List PackageUnit) : Namespaces :=
  (units.map (·.package) ++ ["google.protobuf"]).flatMap ofPackage

/-- A type name as written in a package. -/
def spell (n : Namespaces) (package typeName : String) : String :=
  let name := Text.withoutLeadingDots typeName
  match Text.cutFirstDot name with
  | none => name
  | some (first, _) =>
    if (ofPackage package).any fun scope => n.contains (scope ++ "." ++ first) then "." ++ name else name

end Namespaces

namespace SourceText

/-- The first line of every file. -/
def header : String := "// Code generated by synapse-proto-gen. DO NOT EDIT."

def indent (line : String) : String := if line = "" then "" else "  " ++ line

/-- A line that opens a block, the lines of the block, and the line that closes it. -/
def block (title : String) (body : List String) : List String :=
  [title ++ " \x7b"] ++ body.map indent ++ ["\x7d"]

def field (spell : String → String) (f : Field) : String :=
  let type := if f.type.isNamed then spell (f.typeName.getD "") else f.type.keyword
  (if f.repeated then "repeated " else "") ++ type ++ " " ++ f.name ++ " = " ++ toString f.number ++ ";"

def enumeration (e : Enum) : List String :=
  block ("enum " ++ e.name) (e.values.map fun v => v.name ++ " = " ++ toString v.number ++ ";")

mutual

def message (spell : String → String) : Message → List String
  | ⟨name, fields, enums, nested⟩ =>
    block ("message " ++ name)
      (fields.map (field spell) ++ (enums.flatMap fun e => "" :: enumeration e) ++ nestedMessages spell nested)

/-- Each message after an empty line. -/
def nestedMessages (spell : String → String) : List Message → List String
  | [] => []
  | m :: ms => "" :: message spell m ++ nestedMessages spell ms

end

def method (spell : String → String) (m : Rpc) : List String :=
  let signature := "rpc " ++ m.name ++ "(" ++ spell m.input ++ ") returns (" ++ spell m.output ++ ")"
  if m.pure then block signature ["option idempotency_level = NO_SIDE_EFFECTS;"] else [signature ++ ";"]

def service (spell : String → String) (s : Service) : List String :=
  block ("service " ++ s.name) (s.methods.flatMap (method spell))

def importLines (imports : List String) : List String :=
  if imports.isEmpty then [] else "" :: imports.map fun i => "import \"" ++ i ++ "\";"

/-- The lines of a unit's file. -/
def lines (u : PackageUnit) (n : Namespaces) : List String :=
  let spell := n.spell u.package
  [header, "syntax = \"proto3\";", "", "package " ++ u.package ++ ";"] ++ importLines u.imports ++
    nestedMessages spell u.messages ++ u.services.flatMap fun s => "" :: service spell s

end SourceText

/-- The `.proto` text of a unit. -/
def PackageUnit.render (u : PackageUnit) (n : Namespaces) : String :=
  String.join ((SourceText.lines u n).map (· ++ "\n"))

end Protograph
