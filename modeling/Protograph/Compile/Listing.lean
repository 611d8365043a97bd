/-
  Protograph.Compile.Listing — the three messages of the List method: the filter with one
  field for each mode that a field of the entity offers, the request for a page, and the
  page.

  Fields of the filter are numbered in the order in which they come.
-/

import Protograph.Compile.TypeMap

namespace Protograph

namespace Listing

def filterName (entity : String) : String := "List" ++ entity ++ "Filter"

def requestName (entity : String) : String := "List" ++ entity ++ "Request"

def responseName (entity : String) : String := "List" ++ entity ++ "Response"

/-- The type of a filter field for one value or for members of a list; an enumeration is
    the one nested in the entity's message. -/
def filterType (entity : String) (field : FieldSpec) (optional : Bool) : Except EntityError MappedType :=
  match field.kind with
  | .enumeration => .ok (.enumeration (entity ++ "." ++ enumTypeName field.name))
  | .json | .other => .error (.unsupportedType field.name field.kind.name)
  | kind => mapKind field.name kind optional

/-- Adds a field to the filter, unless its name is there. -/
def push (entity : String) (fields : List Field) (name : String) (t : MappedType) : Except EntityError (List Field) :=
  if fields.any (·.name = name) then .error (.nameConflict (filterName entity) name)
  else .ok (fields ++ [t.toField name (fields.length + 1)])

/-- The field for one value, if that is offered. -/
def pushEq (entity : String) (mode : FilterModes) (field : FieldSpec) (fields : List Field) :
    Except EntityError (List Field) :=
  if mode.has .eq then do
    let t ← filterType entity field true
    push entity fields (Text.snake field.name) t
  else .ok fields

/-- The field for a part of a string, if that is offered. -/
def pushContains (entity : String) (mode : FilterModes) (field : FieldSpec) (fields : List Field) :
    Except EntityError (List Field) :=
  if mode.has .contains then
    if field.kind ≠ .string then .error (.filterModeMismatch entity field.name field.kind.name)
    else push entity fields (Text.snake field.name ++ "_contains") (.message WellKnown.stringValue)
  else .ok fields

/-- The field for a list of values, if that is offered. -/
def pushMember (entity : String) (mode : FilterModes) (field : FieldSpec) (fields : List Field) :
    Except EntityError (List Field) :=
  if mode.has .member then do
    let t ← filterType entity field false
    push entity fields (Text.snake field.name ++ "_in") t.asRepeated
  else .ok fields

/-- Adds the filter fields of one field of the entity. -/
def pushField (entity : String) (fields : List Field) (field : FieldSpec) : Except EntityError (List Field) :=
  match field.annotations.filter with
  | none => .ok fields
  | some options => do
    let fields ← pushEq entity options.mode field fields
    let fields ← pushContains entity options.mode field fields
    pushMember entity options.mode field fields

/-- Adds a filter field that no field of the entity stands behind. -/
def pushExtra (entity : String) (fields : List Field) (extra : String × Kind) : Except EntityError (List Field) :=
  match extra.2.wrapper? with
  | none => .error (.unsupportedType extra.1 ("optional " ++ extra.2.name))
  | some wrapper => push entity fields (Text.snake extra.1) (.message wrapper)

/-- The fields that can be filtered: the identifier and then those declared. -/
def candidates (e : Entity) : List FieldSpec := (e.id :: e.fields).filter fun f => !f.isSkipped

def filter (e : Entity) : Except EntityError Message := do
  let fields ← (candidates e).foldlM (pushField e.name) []
  let extras := (e.annotations.extraFilter.map (·.fields)).getD []
  let fields ← extras.foldlM (pushExtra e.name) fields
  return { name := filterName e.name, fields }

def request (entity : String) : Message :=
  { name := requestName entity
    fields :=
      [(MappedType.message WellKnown.int32Value).toField "offset" 1,
       (MappedType.message WellKnown.int32Value).toField "limit" 2,
       (MappedType.message WellKnown.stringValue).toField "order" 3,
       (MappedType.scalar .bool).toField "descending" 4,
       (MappedType.message (filterName entity)).toField "filter" 5,
       (MappedType.scalar .bool).toField "no_limit" 6] }

def response (entity : String) : Message :=
  { name := responseName entity
    fields :=
      [(MappedType.message entity).asRepeated.toField "items" 1, (MappedType.scalar .int32).toField "total" 2] }

/-- Filter, request and response of an entity. -/
def build (e : Entity) : Except EntityError (List Message) :=
  if !e.id.kind.identifiesRows then .error (.identifierTypeUnsupported e.name e.id.kind.name)
  else do
    let f ← filter e
    return [f, request e.name, response e.name]

end Listing

end Protograph
