/-
  Protograph.Schema.Reading — schema documents read from any source: which keys each
  annotation, field, edge and entity has, which of them must be there, and what stands in
  for those that are not.
-/

import Protograph.Document.Source
import Protograph.Schema.Graph

namespace Protograph.Reading

variable {m : Type → Type} {ν : Type} [Monad m] [Source m ν]

open Source

/-- A table of names and values; a repeated name keeps its place and takes the last value. -/
def table {α : Type} (read : ν → m α) : ν → m (Table α) :=
  entries (fun t key v => do return t.put key (← read v)) []

def choiceOf {α : Type} (all : List α) (name : α → String) (standard : α) (v : ν) : m α := do
  let n ← choice (all.map name) v
  return (all.find? fun x => name x == n).getD standard

def kind : ν → m Kind := choiceOf Kind.all Kind.name .other

def shape : ν → m Shape := choiceOf Shape.all Shape.name .any

def fieldType (v : ν) : m FieldType := do
  let t ← text v
  match FieldType.parse? t with
  | some x => pure x
  | none => fail ν (.unknownType t)

def filterModes : ν → m FilterModes := mask FilterModes.ofWritten

def methods : ν → m Methods := mask Methods.ofWritten

def messageOptions : ν → m MessageOptions :=
  record
    { name := "MessageAnnotation"
      start := {}
      slots :=
        [{ name := "generate", Value := Bool, read := boolean, store := fun x a => { a with generate := x } },
         { name := "package", Value := Option String, read := optional text,
           store := fun x a => { a with package := x } }] }

def serviceOptions : ν → m ServiceOptions :=
  record
    { name := "ServiceAnnotation"
      start := {}
      slots :=
        [{ name := "generate", Value := Bool, read := boolean, store := fun x a => { a with generate := x } },
         { name := "methods", Value := Methods, read := methods, store := fun x a => { a with methods := x } }] }

def extraFilter : ν → m ExtraFilter :=
  record
    { name := "ExtraFilterAnnotation"
      start := {}
      slots :=
        [{ name := "fields", Value := Table Kind, read := table kind, store := fun x a => { a with fields := x } }] }

def fieldOptions : ν → m FieldOptions :=
  record
    { name := "FieldAnnotation"
      start := { number := 0 }
      slots :=
        [{ name := "number", required := true, Value := Int, read := int64,
           store := fun x a => { a with number := x } },
         { name := "type", Value := Option FieldType, read := optional fieldType,
           store := fun x a => { a with type := x } },
         { name := "type_name", Value := Option String, read := optional text,
           store := fun x a => { a with typeName := x } }] }

def enumOptions : ν → m EnumOptions :=
  record
    { name := "EnumAnnotation"
      start := {}
      slots :=
        [{ name := "options", Value := Table Int, read := table int32, store := fun x a => { a with numbers := x } },
         { name := "omit_field_prefix", Value := Bool, read := boolean,
           store := fun x a => { a with omitFieldPrefix := x } }] }

def filterOptions : ν → m FilterOptions :=
  record
    { name := "FilterAnnotation"
      start := {}
      slots :=
        [{ name := "mode", Value := FilterModes, read := filterModes, store := fun x a => { a with mode := x } }] }

def fieldAnnotations : ν → m FieldAnnotations :=
  record
    { name := "FieldAnnotations"
      start := {}
      slots :=
        [{ name := "field", Value := Option FieldOptions, read := optional fieldOptions,
           store := fun x a => { a with field := x } },
         { name := "enum", Value := Option EnumOptions, read := optional enumOptions,
           store := fun x a => { a with enumeration := x } },
         { name := "filter", Value := Option FilterOptions, read := optional filterOptions,
           store := fun x a => { a with filter := x } },
         { name := "skip", Value := Bool, read := boolean, store := fun x a => { a with skip := x } }] }

def edgeAnnotations : ν → m EdgeAnnotations :=
  record
    { name := "EdgeAnnotations"
      start := {}
      slots :=
        [{ name := "field", Value := Option FieldOptions, read := optional fieldOptions,
           store := fun x a => { a with field := x } },
         { name := "skip", Value := Bool, read := boolean, store := fun x a => { a with skip := x } }] }

def entityAnnotations : ν → m EntityAnnotations :=
  record
    { name := "NodeAnnotations"
      start := {}
      slots :=
        [{ name := "message", Value := Option MessageOptions, read := optional messageOptions,
           store := fun x a => { a with message := x } },
         { name := "service", Value := Option ServiceOptions, read := optional serviceOptions,
           store := fun x a => { a with service := x } },
         { name := "extra_filter", Value := Option ExtraFilter, read := optional extraFilter,
           store := fun x a => { a with extraFilter := x } }] }

def fieldSpec : ν → m FieldSpec :=
  record
    { name := "FieldSpec"
      start := { name := "", kind := .other }
      slots :=
        [{ name := "name", required := true, Value := String, read := text,
           store := fun x f => { f with name := x } },
         { name := "type", required := true, Value := Kind, read := kind, store := fun x f => { f with kind := x } },
         { name := "optional", Value := Bool, read := boolean, store := fun x f => { f with optional := x } },
         { name := "values", Value := List String, read := list text, store := fun x f => { f with values := x } },
         { name := "default", Value := Option String, read := optional text,
           store := fun x f => { f with default := x } },
         { name := "json", Value := Option Shape, read := optional shape, store := fun x f => { f with json := x } },
         { name := "annotations", Value := FieldAnnotations, read := fieldAnnotations,
           store := fun x f => { f with annotations := x } }] }

def edgeSpec : ν → m EdgeSpec :=
  record
    { name := "EdgeSpec"
      start := { name := "", target := "" }
      slots :=
        [{ name := "name", required := true, Value := String, read := text,
           store := fun x e => { e with name := x } },
         { name := "target", required := true, Value := String, read := text,
           store := fun x e => { e with target := x } },
         { name := "unique", Value := Bool, read := boolean, store := fun x e => { e with unique := x } },
         { name := "annotations", Value := EdgeAnnotations, read := edgeAnnotations,
           store := fun x e => { e with annotations := x } }] }

def entity : ν → m Entity :=
  record
    { name := "SchemaNode"
      start := { name := "" }
      slots :=
        [{ name := "name", required := true, Value := String, read := text,
           store := fun x e => { e with name := x } },
         { name := "id", Value := FieldSpec, read := fieldSpec, store := fun x e => { e with id := x } },
         { name := "fields", Value := List FieldSpec, read := list fieldSpec,
           store := fun x e => { e with fields := x } },
         { name := "edges", Value := List EdgeSpec, read := list edgeSpec,
           store := fun x e => { e with edges := x } },
         { name := "annotations", Value := EntityAnnotations, read := entityAnnotations,
           store := fun x e => { e with annotations := x } }] }

def document : ν → m Document :=
  record
    { name := "SchemaDocument"
      start := {}
      slots :=
        [{ name := "entities", Value := List Entity, read := list entity,
           store := fun x d => { d with entities := x } }] }

end Protograph.Reading
