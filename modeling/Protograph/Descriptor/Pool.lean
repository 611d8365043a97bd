/-
  Protograph.Descriptor.Pool — what a set of files must satisfy to be a pool of
  descriptors.

  First every name is claimed: of packages, messages, fields, oneofs, enumerations, their
  values (in the scope around the enumeration), services and methods, each at most once,
  except that packages may be shared. Then numbers are checked, and that a field that must name
  a type does. The first fault in the order of the files is reported, and a fault of names
  before any other.
-/

import Protograph.Descriptor.Basic
import Protograph.Fault

namespace Protograph.Pool

/-- A name that is taken: by a package, or by something else in a file. -/
structure Claim where
  name : String
  file : String
  isPackage : Bool

abbrev Check := Except PoolFault

/-- Takes a name for something in a file. -/
def claim (file : String) (claims : List Claim) (name : String) (isPackage : Bool := false) : Check (List Claim) :=
  match claims.find? (·.name == name) with
  | none => .ok (⟨name, file, isPackage⟩ :: claims)
  | some c =>
    if isPackage && c.isPackage then .ok claims
    else .error (.nameAgain name (if c.file = file then none else some c.file))

def claimAll (file : String) (claims : List Claim) (names : List String) : Check (List Claim) :=
  names.foldlM (fun cs n => claim file cs n) claims

/-- The name of a field as far as camel case tells names apart. -/
def foldedName (name : String) : String := String.ofList ((name.toList.filter (· ≠ '_')).map Char.toLower)

/-- Refuses two fields whose names differ in underscores and case only. -/
def checkCamelCase (seen : List String) : List Field → Check PUnit
  | [] => .ok ⟨⟩
  | f :: fs => match seen.find? fun s => foldedName s = foldedName f.name with
    | some s => .error (.sameCamelCase s f.name)
    | none => checkCamelCase (seen ++ [f.name]) fs

/-- Takes the names of an enumeration and of its values. -/
def nameEnum (file scope : String) (claims : List Claim) (e : Enum) : Check (List Claim) := do
  let claims ← claim file claims (qualify scope e.name)
  match e.values with
  | [] => .error .emptyEnum
  | v :: _ =>
    if v.number ≠ 0 then .error .firstValueNotZero
    else claimAll file claims (e.values.map fun v => qualify scope v.name)

mutual

/-- Takes the names of a message and of everything in it. -/
def nameMessage (file scope : String) (claims : List Claim) : Message → Check (List Claim)
  | ⟨name, fields, enums, nested⟩ => do
    let claims ← claim file claims (qualify scope name)
    checkCamelCase [] fields
    let claims ← claimAll file claims (fields.map fun f => qualify (qualify scope name) f.name)
    let claims ← nameMessages file (qualify scope name) claims nested
    enums.foldlM (nameEnum file (qualify scope name)) claims

def nameMessages (file scope : String) (claims : List Claim) : List Message → Check (List Claim)
  | [] => .ok claims
  | m :: ms => do
    let claims ← nameMessage file scope claims m
    nameMessages file scope claims ms

end

def nameService (file scope : String) (claims : List Claim) (s : Service) : Check (List Claim) := do
  let claims ← claim file claims (qualify scope s.name)
  claimAll file claims (s.methods.map fun m => qualify (qualify scope s.name) m.name)

/-- A package and the packages around it, outermost first. -/
def packagePrefixes (package : String) : List String :=
  if package = "" then []
  else
    let segments := Text.split '.' package
    (List.range segments.length).map fun n => String.intercalate "." (segments.take (n + 1))

def nameFile (claims : List Claim) (f : ProtoFile) : Check (List Claim) := do
  let claims ← (packagePrefixes f.package).foldlM (fun cs p => claim f.path cs p true) claims
  let claims ← nameMessages f.path f.package claims f.messages
  let claims ← claimAll f.path claims (f.oneofs.map (qualify f.package))
  let claims ← f.enums.foldlM (nameEnum f.path f.package) claims
  f.services.foldlM (nameService f.path f.package) claims

/-- Takes the names of all files, and sees to it that no path comes twice. -/
def nameFiles : List String → List Claim → List ProtoFile → Check PUnit
  | _, _, [] => .ok ⟨⟩
  | paths, claims, f :: fs =>
    if f.path ∈ paths then .error (.fileAgain f.path)
    else do
      let claims ← nameFile claims f
      nameFiles (f.path :: paths) claims fs

/-- Whether a field may have the number. -/
def isFieldNumber (n : Int) : Bool := 1 ≤ n && n ≤ maxFieldNumber && !(19000 ≤ n && n ≤ 19999)

/-- Checks the numbers of fields and that they name a type where they must. `path` leads to
    their message, of which the next field is at `position`. -/
def checkFields (path : List Nat) (position : Nat) (seen : List Int) : List Field → Check PUnit
  | [] => .ok ⟨⟩
  | f :: fs =>
    if !isFieldNumber f.number then .error (.badNumber f.number)
    else if (f.type.isNamed || f.type = .group) && f.typeName.isNone then
      .error (.missingTypeName (path ++ [2, position, 6]))
    else if f.number ∈ seen then .error (.sameFieldNumber f.number)
    else checkFields path (position + 1) (f.number :: seen) fs

def checkValues (seen : List Int) : List EnumValue → Check PUnit
  | [] => .ok ⟨⟩
  | v :: vs => if v.number ∈ seen then .error (.sameEnumNumber v.number) else checkValues (v.number :: seen) vs

mutual

/-- Checks the numbers of a message and of everything in it. -/
def checkMessage (path : List Nat) : Message → Check PUnit
  | ⟨_, fields, enums, nested⟩ => do
    checkFields path 0 [] fields
    checkMessages (path ++ [3]) 0 nested
    enums.forM fun e => checkValues [] e.values

def checkMessages (path : List Nat) (position : Nat) : List Message → Check PUnit
  | [] => .ok ⟨⟩
  | m :: ms => do
    checkMessage (path ++ [position]) m
    checkMessages path (position + 1) ms

end

def checkFile (f : ProtoFile) : Check PUnit := do
  checkMessages [4] 0 f.messages
  f.enums.forM fun e => checkValues [] e.values

/-- Whether the files are a pool of descriptors, and otherwise what keeps them from it. -/
def check (files : List ProtoFile) : Check PUnit := do
  nameFiles [] [] files
  files.forM checkFile

end Protograph.Pool
