/-
  Protograph.Compile.Enumeration — the enumeration of a field, nested in the message of
  its entity.

  Numbers come from the options alone. A declared default has number 0 and stands
  first; without one an unspecified value with number 0 is put in front.
-/

import Protograph.Compile.TypeMap

namespace Protograph

namespace Enumeration

def isIdentifierChar (c : Char) : Bool := (c.toNat < 0x80 && c.isAlphanum) || c = '_'

/-- Puts one underscore in place of each run of characters that no identifier has; `inRun`
    says whether one has been put already. -/
def normalizeChars (inRun : Bool) : List Char → List Char
  | [] => []
  | c :: cs =>
    if isIdentifierChar c then c :: normalizeChars false cs
    else if inRun then normalizeChars true cs
    else '_' :: normalizeChars true cs

def normalize (value : String) : String := String.ofList (normalizeChars false value.toList)

/-- The identifier of a value. -/
def identifier (value : String) : String := Text.shoutySnake (normalize value)

/-- The first element that shares its key with an earlier one, after that one. -/
def firstClash {α β : Type} [DecidableEq β] (key : α → β) (seen : List α) : List α → Option (α × α)
  | [] => none
  | x :: xs => match seen.find? fun y => key y = key x with
    | some y => some (y, x)
    | none => firstClash key (x :: seen) xs

/-- What is wrong with the numbers that an annotation gives to a field's values. -/
def fault? (field : FieldSpec) (options : EnumOptions) : Option AnnotationFault :=
  match field.values.find? fun v => !options.numbers.has v with
  | some v => some (.valueWithoutNumber v)
  | none =>
  match options.numbers.keys.find? fun k => !field.values.contains k with
  | some k => some (.numberWithoutValue k)
  | none =>
  match firstClash identifier [] field.values with
  | some (a, b) => some (.sameIdentifier a b (identifier b))
  | none =>
  match firstClash (·.2) [] options.numbers with
  | some (a, b) => some (.sameNumber a.1 b.1 b.2)
  | none =>
  match field.default with
  | some d =>
    if !field.values.contains d then some (.defaultNotValue d)
    else if options.numbers.get? d ≠ some 0 then some (.defaultNotZero d)
    else none
  | none => (options.numbers.find? fun e => e.2 = 0).map fun e => .zeroNotDefault e.1

/-- The values in the order of the enumeration: the default first. -/
def ordered (field : FieldSpec) : List String :=
  field.default.toList ++ field.values.filter fun v => some v ≠ field.default

def valueName (field : FieldSpec) (options : EnumOptions) (value : String) : String :=
  if options.omitFieldPrefix then identifier value else Text.shoutySnake field.name ++ "_" ++ identifier value

def values (field : FieldSpec) (options : EnumOptions) : List EnumValue :=
  (if field.default.isNone then [⟨Text.shoutySnake field.name ++ "_UNSPECIFIED", 0⟩] else []) ++
    (ordered field).map fun v => ⟨valueName field options v, (options.numbers.get? v).getD 0⟩

/-- The enumeration of a field. -/
def build (entity : String) (field : FieldSpec) : Except EntityError Enum :=
  let element := entity ++ "." ++ field.name
  match field.annotations.enumeration with
  | none => .error (.misannotated element .missingEnum)
  | some options =>
    match fault? field options with
    | some fault => .error (.misannotated element fault)
    | none =>
      let vs := values field options
      match firstClash EnumValue.name [] vs with
      | some (_, v) => .error (.nameConflict (entity ++ "." ++ enumTypeName field.name) v.name)
      | none => .ok { name := enumTypeName field.name, values := vs }

/-- The message that wraps a value of a field's enumeration. -/
def wrapper (entity : String) (field : FieldSpec) : Message :=
  { name := enumWrapperName entity field.name
    fields := [(MappedType.enumeration (entity ++ "." ++ enumTypeName field.name)).toField "value" 1] }

end Enumeration

end Protograph
