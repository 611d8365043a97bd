/-
  Protograph.Document.Source — reading typed values from the values of a document.

  A `Source` says how a format gives text, numbers, lists and so on. A record is read
  from a `Record`: its fields in the order declared, each with a reader and with the
  place in the record where its value goes. The fields of a mapping are visited in the
  order of the document, so of two faults the earlier one is reported; one that is
  unknown or there already is at fault before its value is looked at.
-/

import Protograph.Document.Cause
import Protograph.Schema.Mask

namespace Protograph

/-- A field of a record type `ρ`, read from values of type `ν`. -/
structure Slot (m : Type → Type) (ν ρ : Type) where
  name : String
  /-- Whether the field must be there; otherwise the record starts with its default. -/
  required : Bool := false
  Value : Type
  read : ν → m Value
  store : Value → ρ → ρ

/-- How a record is read: its name, its fields as declared, and the record without any. -/
structure Record (m : Type → Type) (ν ρ : Type) where
  name : String
  slots : List (Slot m ν ρ)
  start : ρ

class Source (m : outParam (Type → Type)) (ν : Type) where
  fail {α : Type} : Cause → m α
  text : ν → m String
  boolean : ν → m Bool
  int64 : ν → m Int
  int32 : ν → m Int
  optional {α : Type} : (ν → m α) → ν → m (Option α)
  list {α : Type} : (ν → m α) → ν → m (List α)
  /-- Visits keys and values of a mapping in the order of the document. -/
  entries {σ : Type} : (σ → String → ν → m σ) → σ → ν → m σ
  record {ρ : Type} : Record m ν ρ → ν → m ρ
  /-- One of some names. -/
  choice : List String → ν → m String
  /-- What is written for a set of flags, if it is one of the forms there are. -/
  written : ν → m (Option Written)

namespace Record

variable {m : Type → Type} {ν ρ : Type}

def names (r : Record m ν ρ) : List String := r.slots.map (·.name)

/-- The record's name as messages have it. -/
def title (r : Record m ν ρ) : String := "struct " ++ r.name

/-- Fields visited so far, and the record as far as it is read. -/
structure Progress (ρ : Type) where
  seen : List String
  value : ρ

def begin (r : Record m ν ρ) : Progress ρ := ⟨[], r.start⟩

variable [Monad m]

/-- Visits one field of a mapping. -/
def visit (fail : {α : Type} → Cause → m α) (r : Record m ν ρ) (p : Progress ρ) (key : String) (value : ν) :
    m (Progress ρ) :=
  match r.slots.find? (·.name == key) with
  | none => fail (.unknownField key r.names)
  | some slot =>
    if key ∈ p.seen then fail (.repeatedField key)
    else do
      let x ← slot.read value
      pure ⟨key :: p.seen, slot.store x p.value⟩

/-- The first required field that was not visited. -/
def missing? (r : Record m ν ρ) (p : Progress ρ) : Option String :=
  (r.slots.find? fun s => s.required && s.name ∉ p.seen).map (·.name)

/-- The record at the end of a mapping. -/
def close (fail : {α : Type} → Cause → m α) (r : Record m ν ρ) (p : Progress ρ) : m ρ :=
  match r.missing? p with
  | some name => fail (.missingField name)
  | none => pure p.value

/-- The form of a record that messages want when its sequence is too short. -/
def arity (r : Record m ν ρ) : String :=
  r.title ++ " with " ++ toString r.slots.length ++ (if r.slots.length = 1 then " element" else " elements")

/-- The record from the values of its fields in the order declared; the rest of the
    values comes back. Fields at the end may be left out unless they are required. -/
def fromSequence (fail : {α : Type} → Cause → m α) (r : Record m ν ρ) :
    Nat → List (Slot m ν ρ) → ρ → List ν → m (ρ × List ν)
  | _, [], value, rest => pure (value, rest)
  | n, s :: ss, value, [] =>
    if (s :: ss).any (·.required) then fail (.wrongLength n r.arity) else pure (value, [])
  | n, s :: ss, value, v :: vs => do
    let x ← s.read v
    fromSequence fail r (n + 1) ss (s.store x value) vs

end Record

namespace Source

variable {m : Type → Type} {ν : Type} [Monad m] [Source m ν]

/-- The set of flags that a vocabulary gives to what is written. -/
def mask {α : Type} (ofWritten : Written → Except MaskFault α) (v : ν) : m α := do
  match ← Source.written v with
  | none => Source.fail ν .noMask
  | some w => match ofWritten w with
    | .ok x => pure x
    | .error (.badBits what bits) => Source.fail ν (.badMaskBits what bits)
    | .error (.badName what name) => Source.fail ν (.badMaskName what name)

end Source

end Protograph
